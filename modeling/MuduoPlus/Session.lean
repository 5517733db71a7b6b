import Mathlib.Data.List.Nodup
import Mathlib.Logic.Function.Basic
import MuduoPlus.ActionSystem
import MuduoPlus.HttpRequest
import MuduoPlus.HttpResponse

namespace MuduoPlus

/-- `Session`, with times in nanoseconds of the system clock. `managed` says that
`manager_.lock()` finds the manager. -/
structure Session where
  sessionId : Bytes
  data : Dict
  expiryTime : Int
  maxAge : Int
  managed : Bool

namespace Session

def isExpired (s : Session) (now : Int) : Bool := decide (s.expiryTime < now)

def refresh (s : Session) (now : Int) : Session :=
  { s with expiryTime := now + s.maxAge * 1000000000 }

/-- The constructor with its default `maxAge`. -/
def new (sessionId : Bytes) (managed : Bool) (now : Int) : Session :=
  refresh ⟨sessionId, ∅, 0, 3600, managed⟩ now

end Session

/-- What `setValue`, `remove` and `clear` do to `data_`. -/
inductive SessionEdit where
  | setValue (key value : Bytes)
  | remove (key : Bytes)
  | clear

def SessionEdit.apply : SessionEdit → Dict → Dict
  | .setValue key value, data => data.insert key value
  | .remove key, data => data.erase key
  | .clear, _ => ∅

/-- The edit has a say about what is under the key. -/
def SessionEdit.Touches (key : Bytes) : SessionEdit → Prop
  | .setValue key' _ => key' = key
  | .remove key' => key' = key
  | .clear => True

/-- The sessions that were made, by their address, and `sessions_` of `MemorySessionStorage`. -/
structure SessionStore where
  heap : List Session
  sessions : Bytes → Option Nat

namespace SessionStore

def new : SessionStore := ⟨[], fun _ => none⟩

/-- `isExpired()` of the session at `a`. -/
def expired (st : SessionStore) (a : Nat) (now : Int) : Bool :=
  (st.heap[a]?).any fun s => s.isExpired now

def save (st : SessionStore) (a : Nat) : SessionStore :=
  match st.heap[a]? with
  | some s => { st with sessions := Function.update st.sessions s.sessionId (some a) }
  | none => st

def load (st : SessionStore) (id : Bytes) : Option Nat := st.sessions id

def remove (st : SessionStore) (id : Bytes) : SessionStore :=
  { st with sessions := Function.update st.sessions id none }

/-- `clearExpired`, with what the clock shows when it comes to each entry. -/
def clearExpired (st : SessionStore) (clock : Bytes → Int) : SessionStore :=
  { st with sessions := fun id => (st.sessions id).filter fun a => !st.expired a (clock id) }

def modify (st : SessionStore) (a : Nat) (f : Session → Session) : SessionStore :=
  { st with heap := st.heap.modify a f }

/-- `setValue`, `remove` or `clear` of the session at `a`: a change of its data, which is then
written back through the manager. -/
def edit (st : SessionStore) (a : Nat) (e : SessionEdit) : SessionStore :=
  let changed := st.modify a fun s => { s with data := e.apply s.data }
  if (st.heap[a]?).any (·.managed) then changed.save a else changed

end SessionStore

/-- What follows the first `pattern` in a text. -/
def afterFirst (pattern : Bytes) : Bytes → Option Bytes
  | [] => if pattern = [] then some [] else none
  | b :: text =>
    if pattern.isPrefixOf (b :: text) then some ((b :: text).drop pattern.length)
    else afterFirst pattern text

namespace SessionManager

def chSemicolon : UInt8 := 59

/-- The session id in the text of a cookie header. -/
def sessionIdIn (cookieHeader : Bytes) : Bytes :=
  if cookieHeader = [] then []
  else
    match afterFirst (ascii "SESSIONID=") cookieHeader with
    | none => []
    | some text => text.takeWhile (· ≠ chSemicolon)

def getSessionIdFromCookie (req : HttpRequest) : Bytes :=
  sessionIdIn (req.getHeader (ascii "Cookie"))

def setSessionCookie (sessionId : Bytes) (resp : HttpResponse) : HttpResponse :=
  resp.addHeader (ascii "Set-Cookie") (ascii "SESSIONID=" ++ sessionId ++
    ascii "; Path=/; HttpOnly; " ++ ascii "SameSite=Lax; Max-Age=3600")

/-- What `getSession` returns and leaves behind. -/
structure Found where
  session : Nat
  response : HttpResponse
  store : SessionStore

/-- `getSession`; `newId` is what `generateSessionId` returns, `tested` and `refreshed` are the
two readings of the clock, `shared` says that the manager is owned by a `shared_ptr`. -/
def getSession (shared : Bool) (req : HttpRequest) (resp : HttpResponse) (newId : Bytes)
    (tested refreshed : Int) (st : SessionStore) : Found :=
  match (st.load (getSessionIdFromCookie req)).filter fun a => !st.expired a tested with
  | none =>
    let session := st.heap.length
    let made := { st with heap := st.heap ++ [Session.new newId shared refreshed] }
    ⟨session, setSessionCookie newId resp, made.save session⟩
  | some session => ⟨session, resp, (st.modify session (·.refresh refreshed)).save session⟩

end SessionManager

/-- A store in use: the time of its last step, the edits made on each session, and the ids of
sessions that were destroyed. -/
structure SessionRun where
  store : SessionStore
  now : Int
  edits : List (Nat × SessionEdit)
  destroyed : List Bytes

inductive SessionStep where
  | getSession (req : HttpRequest) (resp : HttpResponse) (newId : Bytes) (tested refreshed : Int)
  | edit (session : Nat) (e : SessionEdit)
  | destroySession (sessionId : Bytes)
  | cleanExpiredSessions (clock : Bytes → Int) (later : Int)

namespace SessionRun

open SessionManager

variable {shared : Bool} {r : SessionRun}

/-- There has been a session with this id. -/
def Made (id : Bytes) (r : SessionRun) : Prop := ∃ s ∈ r.store.heap, s.sessionId = id

instance (id : Bytes) (r : SessionRun) : Decidable (Made id r) :=
  inferInstanceAs (Decidable (∃ s ∈ r.store.heap, s.sessionId = id))

def apply (shared : Bool) : SessionStep → SessionRun → SessionRun
  | .getSession req resp newId tested refreshed, r =>
    { r with
      store := (getSession shared req resp newId tested refreshed r.store).store
      now := refreshed }
  | .edit session e, r => { r with store := r.store.edit session e, edits := r.edits ++ [(session, e)] }
  | .destroySession sessionId, r =>
    { r with
      store := r.store.remove sessionId
      destroyed := if Made sessionId r then sessionId :: r.destroyed else r.destroyed }
  | .cleanExpiredSessions clock later, r =>
    { r with store := r.store.clearExpired clock, now := later }

/-- Any calls in any order. Generated ids are new and not empty, and the clock does not go back;
edits are made on sessions that were returned. -/
def system (shared : Bool) : ActionSystem SessionRun SessionStep where
  init r := r.store = .new ∧ r.edits = [] ∧ r.destroyed = []
  permitted
    | .getSession _ _ newId tested refreshed, r =>
      newId ≠ [] ∧ ¬Made newId r ∧ r.now ≤ tested ∧ tested ≤ refreshed
    | .edit session _, r => session < r.store.heap.length
    | .destroySession _, _ => True
    | .cleanExpiredSessions clock later, r => ∀ id, r.now ≤ clock id ∧ clock id ≤ later
  apply := apply shared

/-- The last of the session's edits to have a say about the key put the value there. -/
def LastSet (session : Nat) (key value : Bytes) (edits : List (Nat × SessionEdit)) : Prop :=
  ∃ before after, edits = before ++ (session, .setValue key value) :: after ∧
    ∀ p ∈ after, p.1 = session → ¬p.2.Touches key

end SessionRun

end MuduoPlus
