import ErrorCore.Foundation.Text
import ErrorCore.Foundation.Transition

/-!
# HTTP transport

The HTTP/2 sessions of `HttpTransport` in `src/transport/http-transport.ts`. Each
attempt of a send asks `getHttp2Session` for a session, which is the one in the
field `http2Session` while that can be used, and otherwise a new one that gets
into the field when it has connected. Errors of streams, the end of a session and
`shutdown` take the session out of the field again.

Node emits `close` and `error` on a session that is destroyed. A session may also
be closed without an event, by which it takes no more streams. `collateral` is
not in the code: it has the streams whose errors have destroyed a session, each
stream by its own session, with the session that was destroyed.
-/

namespace ErrorCore.HttpTransport

abbrev SessionId := Nat

inductive SessionStatus
  | connecting
  | established
  /-- `closed` and not `destroyed`. -/
  | closed
  | destroyed
  deriving DecidableEq, Repr

structure Session where
  status : SessionStatus
  /-- The promise of `getHttp2Session` is settled. -/
  settled : Bool
  /-- The handlers of `close`, `error` and `goaway` are registered. -/
  listening : Bool
  deriving DecidableEq, Repr

structure State where
  sessions : List Session
  http2Session : Option SessionId
  /-- The sessions that sends have been given and not yet asked for a stream. -/
  ready : List SessionId
  /-- The session of each stream. -/
  streams : List SessionId
  negotiatedHttp2 : Bool
  shutdown : Bool
  collateral : List (SessionId × SessionId)
  deriving DecidableEq, Repr

def State.update (s : State) (i : SessionId) (f : Session → Session) : State :=
  { s with sessions := s.sessions.modify i f }

def Session.destroy (session : Session) : Session := { session with status := .destroyed }

/-- A session that is neither `destroyed` nor `closed`. -/
def Session.usable (session : Session) : Bool :=
  session.status = .connecting || session.status = .established

/-- What a send is given at once, or a new session that connects for it. -/
def getHttp2Session (s : State) : State :=
  let reused :=
    s.http2Session.bind fun i =>
      if (s.sessions[i]?).any Session.usable then some i else none
  match reused with
  | some i => { s with ready := s.ready ++ [i] }
  | none =>
      { s with
        sessions := s.sessions ++ [{ status := .connecting, settled := false, listening := false }] }

/-- `fail`: the promise is rejected and the session destroyed, unless the promise is settled. -/
def fail (s : State) (i : SessionId) : State :=
  s.update i fun session =>
    if session.settled then session else { session.destroy with settled := true }

/-- The handler of `connect`. -/
def handleConnect (s : State) (i : SessionId) (session : Session)
    (alpnProtocol : Option Text) : State :=
  if session.settled then s
  else if alpnProtocol.any fun protocol => protocol ≠ ("h2" : Text) then fail s i
  else
    { s.update i fun session =>
        { session with status := .established, settled := true, listening := true } with
      http2Session := some i
      ready := s.ready ++ [i] }

/-- What the handlers of `close`, `error` and `goaway` do to the field. -/
def forget (s : State) (i : SessionId) (session : Session) : State :=
  if session.listening ∧ s.http2Session = some i then { s with http2Session := none } else s

def destroyHttp2Session (s : State) : State :=
  match s.http2Session with
  | none => s
  | some i => { s.update i Session.destroy with http2Session := none }

/-- A session that `destroyHttp2Session` is about to destroy. -/
def doomed (s : State) : Option SessionId :=
  s.http2Session.bind fun i =>
    if (s.sessions[i]?).any fun session => session.status ≠ .destroyed then some i else none

/-- The handler of `error` of a stream. -/
def handleStreamError (s : State) (stream : SessionId) : State :=
  { destroyHttp2Session s with
    collateral := s.collateral ++ (doomed s).toList.map fun destroyed => (stream, destroyed) }

/-- What a send does once it has a session. A session that cannot be used throws. -/
def openStream (s : State) (i : SessionId) : State :=
  let opened := { s with ready := s.ready.erase i, negotiatedHttp2 := true }
  if (s.sessions[i]?).any Session.usable then { opened with streams := s.streams ++ [i] }
  else opened

inductive Action
  /-- An attempt of a send calls `getHttp2Session`. -/
  | getSession
  | openStream (i : SessionId)
  | connect (i : SessionId) (alpnProtocol : Option Text)
  /-- The timer of `getHttp2Session` fires. -/
  | connectTimeout (i : SessionId)
  | sessionError (i : SessionId)
  | sessionClose (i : SessionId)
  | goaway (i : SessionId)
  /-- The session takes no more streams. -/
  | sessionClosing (i : SessionId)
  | streamError (stream : Nat)
  | shutdown
  deriving DecidableEq, Repr

def step (s : State) : Action → Option State
  | .getSession => some (getHttp2Session s)
  | .openStream i => if i ∈ s.ready then some (openStream s i) else none
  | .connect i alpnProtocol =>
      match s.sessions[i]? with
      | none => none
      | some session =>
          if session.status = .connecting then some (handleConnect s i session alpnProtocol)
          else none
  | .connectTimeout i => if i < s.sessions.length then some (fail s i) else none
  | .sessionError i =>
      match s.sessions[i]? with
      | none => none
      | some session => some (forget ((fail s i).update i Session.destroy) i session)
  | .sessionClose i =>
      match s.sessions[i]? with
      | none => none
      | some session => some (forget (s.update i Session.destroy) i session)
  | .goaway i =>
      match s.sessions[i]? with
      | none => none
      | some session =>
          if session.listening then some ((forget s i session).update i Session.destroy)
          else some s
  | .sessionClosing i =>
      match s.sessions[i]? with
      | none => none
      | some session =>
          if session.status = .established then
            some (s.update i fun session => { session with status := .closed })
          else none
  | .streamError stream =>
      match s.streams[stream]? with
      | none => none
      | some i => some (handleStreamError s i)
  | .shutdown => some { destroyHttp2Session s with shutdown := true }

def initial : State where
  sessions := []
  http2Session := none
  ready := []
  streams := []
  negotiatedHttp2 := false
  shutdown := false
  collateral := []

def system : Transition.System State Action where
  init s := s = initial
  step := step

end ErrorCore.HttpTransport
