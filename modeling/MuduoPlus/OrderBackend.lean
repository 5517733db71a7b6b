import MuduoPlus.CommandProgram
import MuduoPlus.OrderSql

namespace MuduoPlus

/-- What the order server may raise: an exception of the conversions, or one that the database
connection throws. -/
inductive OrderException where
  | std (e : StdException)
  | sql
  deriving DecidableEq, Repr

/-- A row of the orders table, as far as `ParseSingle` and the queries read it. `quantity` is an
`INT` column, `created_at` counts seconds. -/
structure OrderRow where
  orderId : Bytes
  userId : Bytes
  productId : Bytes
  quantity : Int32
  totalAmount : Float
  currency : Bytes
  status : Bytes
  statusReason : Bytes
  payloadJson : Bytes
  createdAt : Int64
  deriving DecidableEq

/-- What the order server asks of the outside. A statement stands for the text that
`OrderRepository.build` makes of it. -/
inductive OrderCommand where
  /-- `RedisPool::GetClient`: whether there is a connected client. -/
  | getClient
  | redisGet (key : Bytes)
  | redisSet (key value : Bytes)
  | redisDel (key : Bytes)
  | submitUpdate (statement : OrderRepository.Statement)
  | submitQuery (statement : OrderRepository.Statement)
  | publish (message : MqMessage)
  /-- `Clock::now()`. -/
  | now
  /-- The `IdGenerator` of the create handler. -/
  | generateId

abbrev OrderCommand.Answer : OrderCommand → Type
  | .getClient => Bool
  | .redisGet _ => Option Bytes
  | .redisSet _ _ => Bool
  | .redisDel _ => Bool
  | .submitUpdate _ => Except OrderException Nat
  | .submitQuery _ => Except OrderException (List OrderRow)
  | .publish _ => Unit
  | .now => TimePoint
  | .generateId => Bytes

abbrev OrderProgram (α : Type) := Program OrderCommand OrderCommand.Answer OrderException α

namespace OrderProgram

variable {α : Type}

def ofExcept : Except OrderException α → OrderProgram α
  | .ok a => .done a
  | .error e => .raise e

/-- A program of the inventory, with its commands among the server's. -/
def redis : RedisProgram α → OrderProgram α
  | .done a => .done a
  | .get key next => .call (.redisGet key) fun value => redis (next value)
  | .set key value next => .call (.redisSet key value) fun ok => redis (next ok)
  | .del key next => .call (.redisDel key) fun deleted => redis (next deleted)
  | .emit message next => .call (.publish message) fun _ => redis next

/-- The same with a client from the pool. -/
def withClient (p : Bool → RedisProgram α) : OrderProgram α := do
  let client ← Program.ask OrderCommand.getClient
  redis (p client)

/-- `P` has every command of a Redis program. -/
structure AdmitsRedis (P : OrderCommand → Prop) : Prop where
  client : P .getClient
  get : ∀ key, P (.redisGet key)
  set : ∀ key value, P (.redisSet key value)
  del : ∀ key, P (.redisDel key)
  publish : ∀ message, P (.publish message)

theorem AdmitsRedis.always_withClient {P : OrderCommand → Prop} (h : AdmitsRedis P)
    (p : Bool → RedisProgram α) : (withClient p).Always P := by
  have hredis : ∀ p : RedisProgram α, (redis p).Always P := by
    intro p
    induction p with
    | done a => trivial
    | get key next ih => exact ⟨h.get key, ih⟩
    | set key value next ih => exact ⟨h.set key value, ih⟩
    | del key next ih => exact ⟨h.del key, ih⟩
    | emit message next ih => exact ⟨h.publish message, fun _ => ih⟩
  exact (Program.always_ask h.client).bind fun client => hredis (p client)

end OrderProgram

/-- The database behind the connection pool. -/
structure Database (δ : Type) where
  update : OrderRepository.Statement → δ → Except OrderException Nat × δ
  query : OrderRepository.Statement → δ → Except OrderException (List OrderRow)

/-- A database that answers every update with the same count. -/
def Database.answering (count : Nat) : Database Unit := ⟨fun _ db => (.ok count, db), fun _ _ => .ok []⟩

/-- What is behind the server. The clock is read at `clock ticks`, the next generated id is
`ids issued`. -/
structure Backend (δ : Type) where
  redis : Dict
  db : δ
  clock : Nat → TimePoint
  ticks : Nat
  ids : Nat → Bytes
  issued : Nat

/-- One command, with Redis answering without failure. -/
def Database.serve {δ : Type} (database : Database δ) :
    (c : OrderCommand) → Backend δ → c.Answer × Backend δ
  | .getClient, b => (true, b)
  | .redisGet key, b => (b.redis.lookup key, b)
  | .redisSet key value, b => (true, { b with redis := b.redis.insert key value })
  | .redisDel key, b => (decide (key ∈ b.redis), { b with redis := b.redis.erase key })
  | .submitUpdate statement, b =>
    ((database.update statement b.db).1, { b with db := (database.update statement b.db).2 })
  | .submitQuery statement, b => (database.query statement b.db, b)
  | .publish _, b => ((), b)
  | .now, b => (b.clock b.ticks, { b with ticks := b.ticks + 1 })
  | .generateId, b => (b.ids b.issued, { b with issued := b.issued + 1 })

namespace OrderProgram

variable {α δ : Type} {database : Database δ}

theorem exec_redis (p : RedisProgram α) (b : Backend δ) :
    (redis p).exec database.serve b =
      (.ok (StoreProgram.exec p b.redis).1, { b with redis := (StoreProgram.exec p b.redis).2 }) := by
  induction p generalizing b with
  | done a => rfl
  | get key next ih => exact ih _ b
  | set key value next ih => exact ih _ _
  | del key next ih => exact ih _ _
  | emit message next ih => exact ih b

theorem exec_withClient (p : Bool → RedisProgram α) (b : Backend δ) :
    (withClient p).exec database.serve b =
      (.ok (StoreProgram.exec (p true) b.redis).1,
        { b with redis := (StoreProgram.exec (p true) b.redis).2 }) :=
  exec_redis (p true) b

end OrderProgram

/-- What a command answers when it fails: no client, no value, no row. -/
def OrderCommand.failure : (c : OrderCommand) → Option c.Answer
  | .getClient => some false
  | .redisGet _ => some none
  | .redisSet _ _ => some false
  | .redisDel _ => some false
  | .submitUpdate _ => some (.ok 0)
  | .submitQuery _ => none
  | .publish _ => none
  | .now => none
  | .generateId => none

/-- The server's outside with a Redis and a database that may fail. -/
def Database.serveFaulty {δ : Type} (database : Database δ) (luck : Nat → Bool) :
    (c : OrderCommand) → Backend δ × Nat → c.Answer × Backend δ × Nat :=
  Program.faulty OrderCommand.failure luck database.serve

namespace OrderProgram

open Program

variable {α δ : Type} {database : Database δ} {luck : Nat → Bool}

theorem exec_redis_faulty (p : RedisProgram α) (b : Backend δ) (n : Nat) :
    (redis p).exec (database.serveFaulty luck) (b, n) =
      (.ok (p.execFaulty luck n b.redis).1,
        { b with redis := (p.execFaulty luck n b.redis).2.2 }, (p.execFaulty luck n b.redis).2.1) := by
  induction p generalizing b n with
  | done a => rfl
  | get key next ih =>
    have hstep : (redis (.get key next)).exec (database.serveFaulty luck) (b, n) =
        (redis (next (if luck n then b.redis.lookup key else none))).exec
          (database.serveFaulty luck) (b, n + 1) := by
      cases hluck : luck n with
      | false =>
        rw [redis, exec_call, Database.serveFaulty, faulty_failed rfl hluck]
        rfl
      | true =>
        rw [redis, exec_call, Database.serveFaulty, faulty_done rfl hluck]
        rfl
    rw [hstep]
    exact ih _ b (n + 1)
  | set key value next ih =>
    have hstep : (redis (.set key value next)).exec (database.serveFaulty luck) (b, n) =
        (redis (next (luck n))).exec (database.serveFaulty luck)
          ({ b with redis := if luck n then b.redis.insert key value else b.redis }, n + 1) := by
      cases hluck : luck n with
      | false =>
        rw [redis, exec_call, Database.serveFaulty, faulty_failed rfl hluck]
        rfl
      | true =>
        rw [redis, exec_call, Database.serveFaulty, faulty_done rfl hluck]
        rfl
    rw [hstep]
    exact ih _ _ (n + 1)
  | del key next ih =>
    have hstep : (redis (.del key next)).exec (database.serveFaulty luck) (b, n) =
        (redis (next (luck n && decide (key ∈ b.redis)))).exec (database.serveFaulty luck)
          ({ b with redis := if luck n then b.redis.erase key else b.redis }, n + 1) := by
      cases hluck : luck n with
      | false =>
        rw [redis, exec_call, Database.serveFaulty, faulty_failed rfl hluck]
        rfl
      | true =>
        rw [redis, exec_call, Database.serveFaulty, faulty_done rfl hluck]
        rfl
    rw [hstep]
    exact ih _ _ (n + 1)
  | emit message next ih => exact ih b n

theorem exec_withClient_faulty (p : Bool → RedisProgram α) (b : Backend δ) (n : Nat) :
    (withClient p).exec (database.serveFaulty luck) (b, n) =
      (.ok ((p (luck n)).execFaulty luck (n + 1) b.redis).1,
        { b with redis := ((p (luck n)).execFaulty luck (n + 1) b.redis).2.2 },
        ((p (luck n)).execFaulty luck (n + 1) b.redis).2.1) := by
  have hstep : (withClient p).exec (database.serveFaulty luck) (b, n) =
      (redis (p (luck n))).exec (database.serveFaulty luck) (b, n + 1) := by
    unfold withClient
    rw [exec_bind_ok (exec_ask _)]
    cases hluck : luck n with
    | false =>
      rw [Database.serveFaulty, faulty_failed rfl hluck]
    | true =>
      rw [Database.serveFaulty, faulty_done rfl hluck]
      rfl
  rw [hstep, exec_redis_faulty]

end OrderProgram

/-- The command leaves the database alone, and what Redis has under `keys`. -/
def OrderCommand.Spares (keys : Bytes → Prop) : OrderCommand → Prop
  | .redisSet key _ => ¬keys key
  | .redisDel key => ¬keys key
  | .submitUpdate _ => False
  | _ => True

/-- The database is the same, and so is what Redis has under `keys`. -/
structure Spared {δ : Type} (keys : Bytes → Prop) (b b' : Backend δ) : Prop where
  db : b'.db = b.db
  redis : ∀ key, keys key → b'.redis.lookup key = b.redis.lookup key

section Spared

variable {δ : Type} {database : Database δ} {keys : Bytes → Prop} {b b' b'' : Backend δ}

theorem spared_refl (keys : Bytes → Prop) (b : Backend δ) : Spared keys b b :=
  ⟨rfl, fun _ _ => rfl⟩

theorem Spared.trans (h : Spared keys b b') (h' : Spared keys b' b'') : Spared keys b b'' :=
  ⟨h'.db.trans h.db, fun key hk => (h'.redis key hk).trans (h.redis key hk)⟩

theorem spared_serve {c : OrderCommand} (hc : c.Spares keys) (b : Backend δ) :
    Spared keys b (database.serve c b).2 := by
  have hne : ∀ {key key'}, ¬keys key' → keys key → key ≠ key' := by
    rintro key key' hno hyes rfl
    exact hno hyes
  cases c with
  | redisSet key value => exact ⟨rfl, fun _ hk => Finmap.lookup_insert_of_ne b.redis (hne hc hk)⟩
  | redisDel key => exact ⟨rfl, fun _ hk => Finmap.lookup_erase_ne (hne hc hk)⟩
  | submitUpdate statement => exact hc.elim
  | getClient => exact spared_refl keys b
  | redisGet key => exact spared_refl keys b
  | submitQuery statement => exact spared_refl keys b
  | publish message => exact spared_refl keys b
  | now => exact ⟨rfl, fun _ _ => rfl⟩
  | generateId => exact ⟨rfl, fun _ _ => rfl⟩

theorem spared_exec {α : Type} {p : OrderProgram α} (hp : p.Always (OrderCommand.Spares keys))
    (b : Backend δ) : Spared keys b (p.exec database.serve b).2 :=
  hp.exec (fun _ b' hc h => h.trans (spared_serve hc b')) (spared_refl keys b)

/-- The same whichever of the commands fail. -/
theorem spared_exec_faulty {α : Type} {p : OrderProgram α} {luck : Nat → Bool} {n n' : Nat}
    {result : Except OrderException α} (hp : p.Always (OrderCommand.Spares keys))
    (h : p.exec (database.serveFaulty luck) (b, n) = (result, b', n')) : Spared keys b b' := by
  have hspared : Spared keys b (p.exec (database.serveFaulty luck) (b, n)).2.1 := by
    refine hp.exec (Q := fun s : Backend δ × Nat => Spared keys b s.1) (fun c s hc hs => ?_)
      (spared_refl keys b)
    exact Program.faulty_keep (fun b₁ hb₁ => hb₁.trans (spared_serve hc b₁)) s hs
  rw [h] at hspared
  exact hspared

/-- A Redis program that avoids the key spares it. -/
theorem always_withClient_spares {α : Type} {p : Bool → RedisProgram α} {key : Bytes}
    (hp : ∀ client, (p client).Avoids key) :
    (OrderProgram.withClient p).Always (OrderCommand.Spares (· = key)) := by
  have hredis : ∀ p : RedisProgram α, p.Avoids key →
      (OrderProgram.redis p).Always (OrderCommand.Spares (· = key)) := by
    intro p hp
    induction p with
    | done a => trivial
    | get k next ih => exact ⟨trivial, fun value => ih value (hp value)⟩
    | set k value next ih => exact ⟨hp.1, fun ok => ih ok (hp.2 ok)⟩
    | del k next ih => exact ⟨hp.1, fun deleted => ih deleted (hp.2 deleted)⟩
    | emit message next ih => exact ⟨trivial, fun _ => ih hp⟩
  exact (Program.always_ask trivial).bind fun client => hredis (p client) (hp client)

end Spared

namespace OrderRepository

open Program OrderProgram

/-- `SubmitUpdate(sql).get()`. -/
def submitUpdate (statement : Statement) : OrderProgram Nat := do
  let answer ← ask (OrderCommand.submitUpdate statement)
  ofExcept answer

/-- `SubmitQuery(sql).get()`; the result set is not null. -/
def submitQuery (statement : Statement) : OrderProgram (List OrderRow) := do
  let answer ← ask (OrderCommand.submitQuery statement)
  ofExcept answer

/-- `ParseSingle`: the times are not read back. -/
def parseSingle (row : OrderRow) : Record where
  orderId := row.orderId
  userId := row.userId
  productId := row.productId
  quantity := row.quantity.toUInt32
  totalAmount := row.totalAmount
  currency := row.currency
  status := OrderStatus.orderStatusFromString row.status
  statusReason := row.statusReason
  payloadJson := row.payloadJson

def parseMany (rows : List OrderRow) : List Record := rows.map parseSingle

def insert (r : Record) : OrderProgram Bool := do
  let count ← submitUpdate (.insert r)
  pure (decide (0 < count))

def updateStatus (id : Bytes) (s : OrderStatus) (reason : Bytes) : OrderProgram Bool := do
  let count ← submitUpdate (.updateStatus id s reason)
  pure (decide (0 < count))

def updatePayment (id : Bytes) (paid : Float) (paidAt : TimePoint) : OrderProgram Bool := do
  let count ← submitUpdate (.updatePayment id paid paidAt)
  pure (decide (0 < count))

def getById (id : Bytes) : OrderProgram (Option Record) := do
  let rows ← submitQuery (.selectById id)
  pure (rows.head?.map parseSingle)

def listByUser (uid : Bytes) (limit offset : UInt64) : OrderProgram (List Record) := do
  let rows ← submitQuery (.selectByUser uid limit offset)
  pure (parseMany rows)

section Exec

variable {δ : Type} {database : Database δ} {b : Backend δ}

theorem exec_submitUpdate (statement : Statement) :
    (submitUpdate statement).exec database.serve b =
      ((database.update statement b.db).1, { b with db := (database.update statement b.db).2 }) := by
  unfold submitUpdate
  rw [exec_bind_ok (exec_ask _)]
  change Program.exec _ (ofExcept (database.update statement b.db).1) _ = _
  rcases (database.update statement b.db).1 with e | n
  · rfl
  · rfl

theorem exec_submitQuery (statement : Statement) :
    (submitQuery statement).exec database.serve b = (database.query statement b.db, b) := by
  unfold submitQuery
  rw [exec_bind_ok (exec_ask _)]
  change Program.exec _ (ofExcept (database.query statement b.db)) _ = _
  rcases database.query statement b.db with e | rows
  · rfl
  · rfl

theorem exec_getById_of_query {id : Bytes} {rows : List OrderRow}
    (h : database.query (.selectById id) b.db = .ok rows) :
    (getById id).exec database.serve b = (.ok (rows.head?.map parseSingle), b) := by
  unfold getById
  rw [exec_bind_pure, exec_submitQuery, h]
  rfl

theorem exec_insert (r : Record) :
    (insert r).exec database.serve b =
      ((database.update (.insert r) b.db).1.map fun n => decide (0 < n),
        { b with db := (database.update (.insert r) b.db).2 }) := by
  unfold insert
  rw [exec_bind_pure, exec_submitUpdate]

end Exec

end OrderRepository

end MuduoPlus
