/-
The middleware pipeline of a request.

A request calls `before_dispatch` of the middlewares in their order, then an operation of the
server, then `after_dispatch` of those middlewares that have started, in reverse order.  Every call
returns, raises an exception, or is cancelled: a `Fate` for each event of the request.  The
handlers are programs whose calls are answered by the fates and written to a log.

There may be two pipelines on the way of one request, `outer` and `inner`: the one of the router or
the dispatcher, and the one of a handler that runs its own.

* `Paired` — what the log of a request has to say about the calls of the middlewares.
-/
import A2AKit.Answered
import A2AKit.EventLog

namespace A2AKit

inductive ProtocolVersion
  | v03
  | v10
  deriving DecidableEq, Repr

/-- How a call ends; `cancelled` is a `CancelledError`, which is no `Exception`. -/
inductive Fate
  | returns
  | raises
  | cancelled
  deriving DecidableEq, Repr

inductive Failure
  | exception
  | cancelled
  deriving DecidableEq, Repr

inductive Pass
  | outer
  | inner
  deriving DecidableEq, Repr

/-- The operations of the task manager, of the store of push configurations, and the provider of
the extended card. -/
inductive ServerOperation
  | sendMessage
  | streamMessage
  | getTask
  | listTasks
  | cancelTask
  | subscribeTask
  | setConfig
  | getConfig
  | listConfigs
  | deleteConfig
  | extendedCard
  deriving DecidableEq, Repr

/-- Other places at which a request waits or may fail. -/
inductive HttpPoint
  | readBody
  | convertParams
  | closeEvents
  | convertResult
  | render
  | respond
  | startStream
  | streamEvents
  | pingBackends
  deriving DecidableEq, Repr

/-- A call of a request; the middlewares are numbered by their places in the list. -/
inductive HttpEvent
  | before (pass : Pass) (middleware : Nat)
  | after (pass : Pass) (middleware : Nat)
  | operation (op : ServerOperation)
  | point (at_ : HttpPoint)
  deriving DecidableEq, Repr

inductive HttpCall : Type → Type
  | call (e : HttpEvent) : HttpCall Fate

abbrev HttpLog := List (HttpEvent × Fate)

/-- The lists `started` of the two pipelines. -/
structure StartedLists where
  outer : List Nat := []
  inner : List Nat := []
  deriving DecidableEq, Repr

def StartedLists.get (s : StartedLists) : Pass → List Nat
  | .outer => s.outer
  | .inner => s.inner

def StartedLists.append (s : StartedLists) (pass : Pass) (middleware : Nat) : StartedLists :=
  match pass with
  | .outer => { s with outer := s.outer ++ [middleware] }
  | .inner => { s with inner := s.inner ++ [middleware] }

abbrev HttpM := Act HttpCall StartedLists Failure

/-- The fates answer the calls, and the log has them all. -/
def answerCall (fates : HttpEvent → Fate) : ∀ β, HttpCall β → HttpLog → HttpLog × β
  | _, .call e, log => (log ++ [(e, fates e)], fates e)

/-- How a request is answered: with a result, an error, nothing, or a stream of events. -/
inductive Reply
  | result
  | error
  | noContent
  | stream
  deriving DecidableEq, Repr

section

variable {α : Type}

/-- A call that may raise, or be cancelled. -/
def awaitCall (e : HttpEvent) : HttpM Unit := do
  match ← Act.perform (.call e) with
  | .returns => return ()
  | .raises => throw .exception
  | .cancelled => throw .cancelled

/-- A call without an await: it may raise, but it cannot be cancelled. -/
def syncCall (pt : HttpPoint) : HttpM Unit := do
  match ← Act.perform (.call (.point pt)) with
  | .returns => return ()
  | _ => throw .exception

/-- `except Exception`, after which the exception is raised again. -/
def exceptException (m : HttpM α) (r : HttpM Unit) : HttpM α :=
  tryCatchThe Failure m fun
    | .exception => do
      r
      throw .exception
    | .cancelled => throw .cancelled

/-- `except BaseException`, after which the exception is raised again. -/
def exceptBaseException (m : HttpM α) (r : HttpM Unit) : HttpM α :=
  tryCatchThe Failure m fun x => do
    r
    throw x

/-- `except Exception`, which answers with an error. -/
def orError (m : HttpM Reply) : HttpM Reply :=
  tryCatchThe Failure m fun
    | .exception => return .error
    | .cancelled => throw .cancelled

/-- `before_dispatch` of the middlewares, in turn. -/
def beforeDispatch (pass : Pass) : List Nat → HttpM Unit
  | [] => return ()
  | i :: rest => do
    awaitCall (.before pass i)
    Act.modify fun started => started.append pass i
    beforeDispatch pass rest

def afterDispatch (pass : Pass) : List Nat → HttpM Unit
  | [] => return ()
  | i :: rest => do
    awaitCall (.after pass i)
    afterDispatch pass rest

/-- `after_dispatch` of the middlewares that have started, in reverse order. -/
def releaseStarted (pass : Pass) : HttpM Unit := do
  let started ← Act.get
  afterDispatch pass (started.get pass).reverse

end

/-! ### What a log says -/

/-- The log of a program. -/
def logOf (fates : HttpEvent → Fate) {α : Type} (m : HttpM α) : HttpLog :=
  (m.eval (answerCall fates) {} []).2.2

/-- The middlewares whose `before_dispatch` was called. -/
def beforeCalls (log : HttpLog) : List Nat :=
  log.filterMap fun
    | (.before _ i, _) => some i
    | _ => none

/-- The middlewares whose `before_dispatch` completed. -/
def completedCalls (log : HttpLog) : List Nat :=
  log.filterMap fun
    | (.before _ i, .returns) => some i
    | _ => none

def afterCalls (log : HttpLog) : List Nat :=
  log.filterMap fun
    | (.after _ i, _) => some i
    | _ => none

/-- `before_dispatch` is called at most once for each middleware, and the middlewares for which it
completed get exactly one `after_dispatch`, in reverse order. -/
def Paired (log : HttpLog) : Prop :=
  (beforeCalls log).Nodup ∧ afterCalls log = (completedCalls log).reverse

instance (log : HttpLog) : Decidable (Paired log) := inferInstanceAs (Decidable (_ ∧ _))

end A2AKit
