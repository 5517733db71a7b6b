import MuduoPlus.ByteText

namespace MuduoPlus

/-- `BlockingQueue<T>`; each function below is one locked section. -/
structure BlockingQueue (α : Type) where
  queue : List α
  stopped : Bool

namespace BlockingQueue

variable {α : Type}

def new : BlockingQueue α := ⟨[], false⟩

def push (x : α) (q : BlockingQueue α) : BlockingQueue α :=
  if q.stopped then q else { q with queue := q.queue ++ [x] }

/-- `Pop`: nothing while it waits, then the value it returns, or none for `false`. -/
def pop (q : BlockingQueue α) : Option (Option α × BlockingQueue α) :=
  match q.queue with
  | [] => if q.stopped then some (none, q) else none
  | x :: queue => some (some x, { q with queue })

def cancel (q : BlockingQueue α) : BlockingQueue α := { q with stopped := true }

theorem pop_false {q q' : BlockingQueue α} (h : q.pop = some (none, q')) :
    q.stopped = true ∧ q.queue = [] ∧ q' = q := by
  unfold pop at h
  split at h
  next hnil =>
    split at h
    next hstop => exact ⟨hstop, hnil, (Prod.mk.inj (Option.some.inj h)).2.symm⟩
    next => cases h
  next => cases h

theorem pop_true {q q' : BlockingQueue α} {x : α} (h : q.pop = some (some x, q')) :
    q.queue = x :: q'.queue ∧ q'.stopped = q.stopped := by
  unfold pop at h
  split at h
  next =>
    split at h
    next => cases h
    next => cases h
  next y queue hq =>
    cases h
    exact ⟨hq, rfl⟩

end BlockingQueue

/-- `std::promise`: whether `get_future` was called, the value, and the calls of `set_value`. -/
structure Promise (α : Type) where
  handedOut : Bool
  value : Option α
  setCalls : Nat

namespace Promise

variable {α : Type}

def new : Promise α := ⟨false, none, 0⟩

def getFuture (p : Promise α) : Promise α := { p with handedOut := true }

/-- `set_value`; the flag is false when it raises because the promise is satisfied already. -/
def setValue (x : α) (p : Promise α) : Promise α × Bool :=
  match p.value with
  | none => (⟨p.handedOut, some x, p.setCalls + 1⟩, true)
  | some _ => ({ p with setCalls := p.setCalls + 1 }, false)

def Unset (p : Promise α) : Prop := p.value = none ∧ p.setCalls = 0

/-- Fulfilled once if its future was handed out, and left alone otherwise. -/
def Settled (p : Promise α) : Prop :=
  p.value.isSome = p.handedOut ∧ p.setCalls = p.handedOut.toNat

theorem setValue_settled {p : Promise α} (hu : p.Unset) (hh : p.handedOut = true) (x : α) :
    (p.setValue x).2 = true ∧ (p.setValue x).1.handedOut = p.handedOut ∧
      (p.setValue x).1.Settled := by
  obtain ⟨hvalue, hcalls⟩ := hu
  simp [setValue, Settled, hvalue, hcalls, hh]

/-- A promise whose future nobody has stays as it is. -/
theorem settled_of_unset {p : Promise α} (hu : p.Unset) (hh : p.handedOut = false) :
    p.Settled := by
  obtain ⟨hvalue, hcalls⟩ := hu
  simp [Settled, hvalue, hcalls, hh]

end Promise

/-- What a call into the MySQL driver does. -/
inductive DriverOutcome (β : Type) where
  | value (b : β)
  | sqlException
  | otherException

/-- A `MySQLConn` at the time of an `Execute`, after the worker's attempt to reconnect. -/
structure MySQLConn (ρ : Type) where
  isOpen : Bool
  query : DriverOutcome (Option ρ)
  statement : DriverOutcome Unit
  update : DriverOutcome Int

namespace MySQLConn

variable {ρ : Type}

/-- The common form of the three calls: `dflt` without a connection or for an `SQLException`;
other exceptions are raised further. -/
def guarded {β γ : Type} (isOpen : Bool) (outcome : DriverOutcome β) (ok : β → γ) (dflt : γ) :
    Except Unit γ :=
  if isOpen then
    match outcome with
    | .value b => .ok (ok b)
    | .sqlException => .ok dflt
    | .otherException => .error ()
  else .ok dflt

def executeQuery (c : MySQLConn ρ) : Except Unit (Option ρ) := guarded c.isOpen c.query id none

def executeStatement (c : MySQLConn ρ) : Except Unit Bool :=
  guarded c.isOpen c.statement (fun _ => true) false

def executeUpdate (c : MySQLConn ρ) : Except Unit Int := guarded c.isOpen c.update id (-1)

end MySQLConn

inductive SQLKind where
  | query
  | exec
  | update
  deriving DecidableEq, Repr

structure SQLOperation (ρ : Type) where
  kind : SQLKind
  sql : Bytes
  promise : Promise (Option ρ)
  promiseBool : Promise Bool
  promiseInt : Promise Int

namespace SQLOperation

variable {ρ : Type} {op : SQLOperation ρ}

def new (kind : SQLKind) (sql : Bytes) : SQLOperation ρ := ⟨kind, sql, .new, .new, .new⟩

def getFuture (op : SQLOperation ρ) : SQLOperation ρ := { op with promise := op.promise.getFuture }

def getFutureBool (op : SQLOperation ρ) : SQLOperation ρ :=
  { op with promiseBool := op.promiseBool.getFuture }

def getFutureInt (op : SQLOperation ρ) : SQLOperation ρ :=
  { op with promiseInt := op.promiseInt.getFuture }

/-- `set_value` on each of the three promises, with whether it returned. -/
def setResult (r : Option ρ) (op : SQLOperation ρ) : SQLOperation ρ × Bool :=
  ({ op with promise := (op.promise.setValue r).1 }, (op.promise.setValue r).2)

def setBool (b : Bool) (op : SQLOperation ρ) : SQLOperation ρ × Bool :=
  ({ op with promiseBool := (op.promiseBool.setValue b).1 }, (op.promiseBool.setValue b).2)

def setInt (i : Int) (op : SQLOperation ρ) : SQLOperation ρ × Bool :=
  ({ op with promiseInt := (op.promiseInt.setValue i).1 }, (op.promiseInt.setValue i).2)

/-- The `try` block of `Execute`; the flag is false when something in it raises. -/
def attempt (c : MySQLConn ρ) (op : SQLOperation ρ) : SQLOperation ρ × Bool :=
  match op.kind with
  | .query =>
    match c.executeQuery with
    | .ok r => op.setResult r
    | .error _ => (op, false)
  | .exec =>
    match c.executeStatement with
    | .ok b => op.setBool b
    | .error _ => (op, false)
  | .update =>
    match c.executeUpdate with
    | .ok i => op.setInt i
    | .error _ => (op, false)

/-- The `catch (...)` block. -/
def recover (op : SQLOperation ρ) : SQLOperation ρ × Bool :=
  match op.kind with
  | .query => op.setResult none
  | .exec => op.setBool false
  | .update => op.setInt (-1)

/-- `Execute`; the flag is false when it raises, which ends the program. -/
def execute (c : MySQLConn ρ) (op : SQLOperation ρ) : SQLOperation ρ × Bool :=
  if (op.attempt c).2 then ((op.attempt c).1, true) else (op.attempt c).1.recover

/-- The one future that was handed out is that of the operation's kind. -/
structure Handed (op : SQLOperation ρ) : Prop where
  promise : op.promise.handedOut = decide (op.kind = .query)
  promiseBool : op.promiseBool.handedOut = decide (op.kind = .exec)
  promiseInt : op.promiseInt.handedOut = decide (op.kind = .update)

structure Unset (op : SQLOperation ρ) : Prop where
  promise : op.promise.Unset
  promiseBool : op.promiseBool.Unset
  promiseInt : op.promiseInt.Unset

structure Settled (op : SQLOperation ρ) : Prop where
  promise : op.promise.Settled
  promiseBool : op.promiseBool.Settled
  promiseInt : op.promiseInt.Settled

theorem setResult_settled (hh : op.Handed) (hu : op.Unset) (hk : op.kind = .query)
    (r : Option ρ) :
    (op.setResult r).2 = true ∧ (op.setResult r).1.Handed ∧ (op.setResult r).1.Settled := by
  obtain ⟨hok, hout, hdone⟩ := Promise.setValue_settled hu.promise (by simp [hh.promise, hk]) r
  have hbool := Promise.settled_of_unset hu.promiseBool (by simp [hh.promiseBool, hk])
  have hint := Promise.settled_of_unset hu.promiseInt (by simp [hh.promiseInt, hk])
  exact ⟨hok, ⟨hout.trans hh.promise, hh.promiseBool, hh.promiseInt⟩, hdone, hbool, hint⟩

theorem setBool_settled (hh : op.Handed) (hu : op.Unset) (hk : op.kind = .exec) (b : Bool) :
    (op.setBool b).2 = true ∧ (op.setBool b).1.Handed ∧ (op.setBool b).1.Settled := by
  obtain ⟨hok, hout, hdone⟩ :=
    Promise.setValue_settled hu.promiseBool (by simp [hh.promiseBool, hk]) b
  have hresult := Promise.settled_of_unset hu.promise (by simp [hh.promise, hk])
  have hint := Promise.settled_of_unset hu.promiseInt (by simp [hh.promiseInt, hk])
  exact ⟨hok, ⟨hh.promise, hout.trans hh.promiseBool, hh.promiseInt⟩, hresult, hdone, hint⟩

theorem setInt_settled (hh : op.Handed) (hu : op.Unset) (hk : op.kind = .update) (i : Int) :
    (op.setInt i).2 = true ∧ (op.setInt i).1.Handed ∧ (op.setInt i).1.Settled := by
  obtain ⟨hok, hout, hdone⟩ :=
    Promise.setValue_settled hu.promiseInt (by simp [hh.promiseInt, hk]) i
  have hresult := Promise.settled_of_unset hu.promise (by simp [hh.promise, hk])
  have hbool := Promise.settled_of_unset hu.promiseBool (by simp [hh.promiseBool, hk])
  exact ⟨hok, ⟨hh.promise, hh.promiseBool, hout.trans hh.promiseInt⟩, hresult, hbool, hdone⟩

theorem recover_settled (hh : op.Handed) (hu : op.Unset) :
    op.recover.2 = true ∧ op.recover.1.Handed ∧ op.recover.1.Settled := by
  unfold recover
  cases hk : op.kind with
  | query => exact setResult_settled hh hu hk none
  | exec => exact setBool_settled hh hu hk false
  | update => exact setInt_settled hh hu hk (-1)

/-- The `try` block settles the operation, or the connection raised and nothing was set. -/
theorem attempt_settled (hh : op.Handed) (hu : op.Unset) (c : MySQLConn ρ) :
    op.attempt c = (op, false) ∨
      (op.attempt c).2 = true ∧ (op.attempt c).1.Handed ∧ (op.attempt c).1.Settled := by
  unfold attempt
  cases hk : op.kind with
  | query =>
    dsimp only
    split
    · exact Or.inr (setResult_settled hh hu hk _)
    · exact Or.inl rfl
  | exec =>
    dsimp only
    split
    · exact Or.inr (setBool_settled hh hu hk _)
    · exact Or.inl rfl
  | update =>
    dsimp only
    split
    · exact Or.inr (setInt_settled hh hu hk _)
    · exact Or.inl rfl

/-- `Execute` returns and has fulfilled the promise whose future was handed out, whatever the
connection does. -/
theorem execute_settled (hh : op.Handed) (hu : op.Unset) (c : MySQLConn ρ) :
    (op.execute c).2 = true ∧ (op.execute c).1.Handed ∧ (op.execute c).1.Settled := by
  unfold execute
  rcases attempt_settled hh hu c with heq | ⟨hok, hdone⟩
  · rw [heq]
    exact recover_settled hh hu
  · rw [if_pos hok]
    exact ⟨rfl, hdone⟩

end SQLOperation

/-- The functions of the pool that submit a statement. -/
inductive SubmitCall where
  | asyncQuery
  | submitQuery
  | submitExec
  | submitUpdate
  deriving DecidableEq, Repr

namespace SubmitCall

variable {ρ : Type}

/-- The operation that the call pushes, with the future that the caller gets taken from it. -/
def operation (call : SubmitCall) (sql : Bytes) : SQLOperation ρ :=
  match call with
  | .asyncQuery => (SQLOperation.new .query sql).getFuture
  | .submitQuery => (SQLOperation.new .query sql).getFuture
  | .submitExec => (SQLOperation.new .exec sql).getFutureBool
  | .submitUpdate => (SQLOperation.new .update sql).getFutureInt

theorem operation_handed (call : SubmitCall) (sql : Bytes) :
    (call.operation sql : SQLOperation ρ).Handed := by
  cases call <;> exact ⟨rfl, rfl, rfl⟩

theorem operation_unset (call : SubmitCall) (sql : Bytes) :
    (call.operation sql : SQLOperation ρ).Unset := by
  cases call <;> exact ⟨⟨rfl, rfl⟩, ⟨rfl, rfl⟩, rfl, rfl⟩

end SubmitCall

end MuduoPlus
