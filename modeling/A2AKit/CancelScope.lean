/-
Cancel scopes on Redis.

`request_cancel` sets the cancel key of a task and then publishes on its channel.  A scope looks
for the key, subscribes, looks for the key again and starts a listener.  A message that is
published before the subscription is not delivered, and a key that is set after the second look is
not seen.

A registry keeps the scopes of its turns, and a turn that has ended cleans up the scopes of its
task.  The two commands of a request and the steps of a startup, a listener and a cleanup are
steps of their own, in any order.

* `Wired` — what a scope has at each moment unless its event is set.
* `Noted` — a scope has not missed a request: it will look for the key again, or has a message.
* `Wired.noted`, `Wired.detects` — a wired scope notes every message, and one that has noted a
  request and has nothing left to do has its event set.
-/
import A2AKit.Runs
import A2AKit.Task

namespace A2AKit

inductive ChannelMessage
  | subscribe
  | message
  deriving DecidableEq, Repr

/-- What `_start` does next. -/
inductive StartupPhase
  | firstExists
  | subscribe
  | secondExists
  | startListener
  | closing
  | done
  | cancelled
  deriving DecidableEq, Repr

/-- Where `_listen` stands. -/
inductive ListenerPhase
  | absent
  | listening
  | leaving
  | ended
  deriving DecidableEq, Repr

structure RedisCancelScope where
  taskId : TaskId
  startup : StartupPhase := .firstExists
  listener : ListenerPhase := .absent
  subscribed : Bool := false
  inbox : List ChannelMessage := []
  event : Bool := false
  deriving DecidableEq, Repr

/-- A turn is under way, or in its final `cleanup`: about to delete the cancel key, about to take
its scopes out of the registry, or releasing them. -/
inductive CancelTurnPhase
  | running
  | deleting
  | collecting
  | releasing (toClean : List Nat)
  deriving DecidableEq, Repr

structure CancelTurn where
  scope : RedisCancelScope
  phase : CancelTurnPhase := .running
  deriving DecidableEq, Repr

/-- The next command of `request_cancel`. -/
inductive RequestPhase
  | set
  | publish
  | completed
  deriving DecidableEq, Repr

structure CancelRequest where
  taskId : TaskId
  phase : RequestPhase := .set
  deriving DecidableEq, Repr

/-- The cancel keys, the turns in the order in which they started, the scopes of the registry by
the numbers of their turns, and the requests. -/
structure CancelSystem where
  keys : List String := []
  turns : List CancelTurn := []
  scopes : List Nat := []
  requests : List CancelRequest := []
  deriving DecidableEq, Repr

inductive CancelAction
  | onCancel (taskId : TaskId)
  | startup (turn : Nat)
  | listen (turn : Nat)
  | requestCancel (taskId : TaskId)
  | request (number : Nat)
  | cleanup (turn : Nat) (releaseKey : Bool)
  | proceed (turn : Nat)
  deriving DecidableEq, Repr

/-- An action of a `cleanup`. -/
def CancelAction.isCleanup : CancelAction → Bool
  | .cleanup _ _ => true
  | .proceed _ => true
  | _ => false

def cancelKey (keyPrefix taskId : String) : String := keyPrefix ++ "cancel:" ++ taskId

def cancelChannel (keyPrefix taskId : String) : String := keyPrefix ++ "cancel-ch:" ++ taskId

namespace RedisCancelScope

/-- The next step of `_start`. -/
def start (keyPrefix : String) (keys : List String) (sc : RedisCancelScope) :
    Option RedisCancelScope :=
  match sc.startup with
  | .firstExists =>
    if cancelKey keyPrefix sc.taskId ∈ keys then some { sc with event := true, startup := .done }
    else some { sc with startup := .subscribe }
  | .subscribe =>
    some { sc with
      subscribed := true
      inbox := sc.inbox ++ [.subscribe]
      startup := .secondExists }
  | .secondExists =>
    if cancelKey keyPrefix sc.taskId ∈ keys then
      some { sc with event := true, startup := .closing }
    else some { sc with startup := .startListener }
  | .startListener => some { sc with listener := .listening, startup := .done }
  | .closing => some { sc with subscribed := false, startup := .done }
  | .done => none
  | .cancelled => none

/-- The next step of `_listen`. -/
def listen (sc : RedisCancelScope) : Option RedisCancelScope :=
  match sc.listener with
  | .listening =>
    match sc.inbox with
    | [] => none
    | .subscribe :: rest => some { sc with inbox := rest }
    | .message :: rest => some { sc with inbox := rest, event := true, listener := .leaving }
  | .leaving => some { sc with subscribed := false, listener := .ended }
  | .absent => none
  | .ended => none

/-- What `cleanup` does with a scope: a startup or a listener that is not done is cancelled, and
the subscription ends. -/
def release (sc : RedisCancelScope) : RedisCancelScope :=
  { sc with
    startup := if sc.startup = .done then .done else .cancelled
    listener := if sc.listener = .absent then .absent else .ended
    subscribed := false }

/-- A message on the channel. -/
def deliver (keyPrefix channel : String) (sc : RedisCancelScope) : RedisCancelScope :=
  if sc.subscribed = true ∧ cancelChannel keyPrefix sc.taskId = channel then
    { sc with inbox := sc.inbox ++ [.message] }
  else sc

end RedisCancelScope

namespace CancelSystem

def setScope (s : CancelSystem) (turn : Nat) (scope : RedisCancelScope) : CancelSystem :=
  { s with turns := s.turns.modify turn fun t => { t with scope } }

def setPhase (s : CancelSystem) (turn : Nat) (phase : CancelTurnPhase) : CancelSystem :=
  { s with turns := s.turns.modify turn fun t => { t with phase } }

def setRequest (s : CancelSystem) (number : Nat) (phase : RequestPhase) : CancelSystem :=
  { s with requests := s.requests.modify number fun r => { r with phase } }

/-- `on_cancel` -/
def onCancel (s : CancelSystem) (taskId : TaskId) : CancelSystem :=
  { s with
    turns := s.turns ++ [{ scope := { taskId } }]
    scopes := s.scopes ++ [s.turns.length] }

/-- PUBLISH -/
def publish (keyPrefix : String) (s : CancelSystem) (channel : String) : CancelSystem :=
  { s with turns := s.turns.map fun t => { t with scope := t.scope.deliver keyPrefix channel } }

/-- The turn that has this number is one of the task. -/
def isOf (s : CancelSystem) (taskId : TaskId) (turn : Nat) : Bool :=
  (s.turns[turn]?).any fun t => t.scope.taskId = taskId

/-- What happens next. -/
def step (keyPrefix : String) (s : CancelSystem) : CancelAction → Option (CancelSystem × Unit)
  | .onCancel taskId => some (s.onCancel taskId, ())
  | .startup turn =>
    match s.turns[turn]? with
    | none => none
    | some t =>
      match t.scope.start keyPrefix s.keys with
      | none => none
      | some scope => some (s.setScope turn scope, ())
  | .listen turn =>
    match s.turns[turn]? with
    | none => none
    | some t =>
      match t.scope.listen with
      | none => none
      | some scope => some (s.setScope turn scope, ())
  | .requestCancel taskId => some ({ s with requests := s.requests ++ [{ taskId }] }, ())
  | .request number =>
    match s.requests[number]? with
    | none => none
    | some r =>
      match r.phase with
      | .set =>
        some ({ s.setRequest number .publish with keys := cancelKey keyPrefix r.taskId :: s.keys }, ())
      | .publish =>
        some ((s.publish keyPrefix (cancelChannel keyPrefix r.taskId)).setRequest number .completed, ())
      | .completed => none
  | .cleanup turn releaseKey =>
    match s.turns[turn]? with
    | none => none
    | some t =>
      match t.phase with
      | .running => some (s.setPhase turn (if releaseKey then .deleting else .collecting), ())
      | _ => none
  | .proceed turn =>
    match s.turns[turn]? with
    | none => none
    | some t =>
      match t.phase with
      | .running => none
      | .deleting =>
        some ({ s.setPhase turn .collecting with
          keys := s.keys.filter fun key => key ≠ cancelKey keyPrefix t.scope.taskId }, ())
      | .collecting =>
        some ({ s.setPhase turn (.releasing (s.scopes.filter (s.isOf t.scope.taskId))) with
          scopes := s.scopes.filter fun i => ¬ s.isOf t.scope.taskId i }, ())
      | .releasing [] => none
      | .releasing (i :: rest) =>
        some (({ s with
          turns := s.turns.modify i fun t => { t with scope := t.scope.release } } :
            CancelSystem).setPhase turn (.releasing rest), ())

/-- A request for the task was issued. -/
def Requested (s : CancelSystem) (taskId : TaskId) : Prop := ∃ r ∈ s.requests, r.taskId = taskId

/-- Both commands of a request for the task are through. -/
def Completed (s : CancelSystem) (taskId : TaskId) : Prop :=
  ∃ r ∈ s.requests, r.taskId = taskId ∧ r.phase = .completed

/-- The startup and the listener of the scope have nothing to do. -/
def Quiet (keyPrefix : String) (s : CancelSystem) (turn : Nat) : Prop :=
  s.step keyPrefix (.startup turn) = none ∧ s.step keyPrefix (.listen turn) = none

end CancelSystem

theorem cancelKey_inj {keyPrefix t u : String} :
    cancelKey keyPrefix t = cancelKey keyPrefix u ↔ t = u :=
  String.append_right_inj _

theorem cancelChannel_inj {keyPrefix t u : String} :
    cancelChannel keyPrefix t = cancelChannel keyPrefix u ↔ t = u :=
  String.append_right_inj _

/-! ### One scope -/

namespace RedisCancelScope

/-- What a scope has unless its event is set: a subscription since SUBSCRIBE, and a listener since
the end of its startup. -/
def Wired (sc : RedisCancelScope) : Prop :=
  sc.event = true ∨
    match sc.startup with
    | .firstExists => sc.listener = .absent
    | .subscribe => sc.listener = .absent
    | .secondExists => sc.subscribed = true ∧ sc.listener = .absent
    | .startListener => sc.subscribed = true ∧ sc.listener = .absent
    | .done => sc.subscribed = true ∧ sc.listener = .listening
    | .closing => False
    | .cancelled => False

/-- The event is set, or the scope will look for the key again, or a message has come in. -/
def Noted (sc : RedisCancelScope) : Prop :=
  sc.event = true ∨ sc.startup = .firstExists ∨ sc.startup = .subscribe ∨
    sc.startup = .secondExists ∨ .message ∈ sc.inbox

variable {keyPrefix channel : String} {keys : List String} {sc sc' : RedisCancelScope}

/-- The steps of a startup. -/
inductive StartStep (keyPrefix : String) (keys : List String) (sc : RedisCancelScope) :
    RedisCancelScope → Prop
  | found : sc.startup = .firstExists → cancelKey keyPrefix sc.taskId ∈ keys →
      StartStep keyPrefix keys sc { sc with event := true, startup := .done }
  | missing : sc.startup = .firstExists → cancelKey keyPrefix sc.taskId ∉ keys →
      StartStep keyPrefix keys sc { sc with startup := .subscribe }
  | subscribe : sc.startup = .subscribe → StartStep keyPrefix keys sc
      { sc with subscribed := true, inbox := sc.inbox ++ [.subscribe], startup := .secondExists }
  | foundAgain : sc.startup = .secondExists → cancelKey keyPrefix sc.taskId ∈ keys →
      StartStep keyPrefix keys sc { sc with event := true, startup := .closing }
  | missingAgain : sc.startup = .secondExists → cancelKey keyPrefix sc.taskId ∉ keys →
      StartStep keyPrefix keys sc { sc with startup := .startListener }
  | listen : sc.startup = .startListener →
      StartStep keyPrefix keys sc { sc with listener := .listening, startup := .done }
  | close : sc.startup = .closing →
      StartStep keyPrefix keys sc { sc with subscribed := false, startup := .done }

theorem startStep (h : sc.start keyPrefix keys = some sc') : StartStep keyPrefix keys sc sc' := by
  unfold start at h
  split at h
  · rename_i hstartup
    split at h
    · rename_i hkey
      rw [← Option.some_inj.mp h]
      exact .found hstartup hkey
    · rename_i hkey
      rw [← Option.some_inj.mp h]
      exact .missing hstartup hkey
  · rename_i hstartup
    rw [← Option.some_inj.mp h]
    exact .subscribe hstartup
  · rename_i hstartup
    split at h
    · rename_i hkey
      rw [← Option.some_inj.mp h]
      exact .foundAgain hstartup hkey
    · rename_i hkey
      rw [← Option.some_inj.mp h]
      exact .missingAgain hstartup hkey
  · rename_i hstartup
    rw [← Option.some_inj.mp h]
    exact .listen hstartup
  · rename_i hstartup
    rw [← Option.some_inj.mp h]
    exact .close hstartup
  · exact nomatch h
  · exact nomatch h

/-- The steps of a listener. -/
inductive ListenStep (sc : RedisCancelScope) : RedisCancelScope → Prop
  | confirmed {rest : List ChannelMessage} : sc.listener = .listening →
      sc.inbox = .subscribe :: rest → ListenStep sc { sc with inbox := rest }
  | message {rest : List ChannelMessage} : sc.listener = .listening →
      sc.inbox = .message :: rest →
      ListenStep sc { sc with inbox := rest, event := true, listener := .leaving }
  | leave : sc.listener = .leaving →
      ListenStep sc { sc with subscribed := false, listener := .ended }

theorem listenStep (h : sc.listen = some sc') : ListenStep sc sc' := by
  unfold listen at h
  split at h
  · rename_i hlistener
    split at h
    · exact nomatch h
    · rename_i hinbox
      rw [← Option.some_inj.mp h]
      exact .confirmed hlistener hinbox
    · rename_i hinbox
      rw [← Option.some_inj.mp h]
      exact .message hlistener hinbox
  · rename_i hlistener
    rw [← Option.some_inj.mp h]
    exact .leave hlistener
  · exact nomatch h
  · exact nomatch h

/-- A message adds to the inbox of a subscriber and changes nothing else. -/
theorem deliver_cases (sc : RedisCancelScope) (keyPrefix channel : String) :
    (sc.subscribed = true ∧ cancelChannel keyPrefix sc.taskId = channel ∧
      sc.deliver keyPrefix channel = { sc with inbox := sc.inbox ++ [.message] }) ∨
    sc.deliver keyPrefix channel = sc := by
  unfold deliver
  split
  · rename_i hreceives
    exact Or.inl ⟨hreceives.1, hreceives.2, rfl⟩
  · exact Or.inr rfl

theorem start_taskId (h : sc.start keyPrefix keys = some sc') : sc'.taskId = sc.taskId := by
  cases startStep h with
  | _ => rfl

theorem listen_taskId (h : sc.listen = some sc') : sc'.taskId = sc.taskId := by
  cases listenStep h with
  | _ => rfl

@[simp] theorem deliver_taskId : (sc.deliver keyPrefix channel).taskId = sc.taskId := by
  rcases deliver_cases sc keyPrefix channel with ⟨-, -, h⟩ | h
  · rw [h]
  · rw [h]

/-- Every step of the startup leaves the scope with what it needs next. -/
theorem Wired.start (hw : sc.Wired) (h : sc.start keyPrefix keys = some sc') : sc'.Wired := by
  cases startStep h with
  | found _ _ => exact Or.inl rfl
  | missing hstartup _ => exact hw.imp_right fun hw => by simpa only [hstartup] using hw
  | subscribe hstartup => exact hw.imp_right fun hw => ⟨rfl, by simpa only [hstartup] using hw⟩
  | foundAgain _ _ => exact Or.inl rfl
  | missingAgain hstartup _ => exact hw.imp_right fun hw => by simpa only [hstartup] using hw
  | listen hstartup =>
    refine hw.imp_right fun hw => ?_
    simp only [hstartup] at hw
    exact ⟨hw.1, rfl⟩
  | close hstartup => exact hw.imp_right fun hw => by simp only [hstartup] at hw

theorem Wired.listen (hw : sc.Wired) (h : sc.listen = some sc') : sc'.Wired := by
  cases listenStep h with
  | confirmed _ _ => exact hw
  | message _ _ => exact Or.inl rfl
  | leave hlistener =>
    -- a listener that leaves has set the event
    refine hw.elim Or.inl fun hw => ?_
    simp only [hlistener] at hw
    split at hw
    all_goals simp at hw

theorem Wired.deliver (hw : sc.Wired) : (sc.deliver keyPrefix channel).Wired := by
  rcases deliver_cases sc keyPrefix channel with ⟨-, -, h⟩ | h
  · rw [h]
    exact hw
  · rw [h]
    exact hw

/-- A scope whose startup finds the key, or that is done with it, has noted the request. -/
theorem Noted.start (hn : sc.Noted) (hkey : cancelKey keyPrefix sc.taskId ∈ keys)
    (h : sc.start keyPrefix keys = some sc') : sc'.Noted := by
  cases startStep h with
  | found _ _ => exact Or.inl rfl
  | missing _ hmissing => exact absurd hkey hmissing
  | subscribe _ => exact Or.inr (Or.inr (Or.inr (Or.inl rfl)))
  | foundAgain _ _ => exact Or.inl rfl
  | missingAgain _ hmissing => exact absurd hkey hmissing
  | listen hstartup => simpa [Noted, hstartup] using hn
  | close hstartup => simpa [Noted, hstartup] using hn

theorem Noted.listen (hn : sc.Noted) (h : sc.listen = some sc') : sc'.Noted := by
  cases listenStep h with
  | confirmed _ hinbox => simpa [Noted, hinbox] using hn
  | message _ _ => exact Or.inl rfl
  | leave _ => exact hn

theorem Noted.deliver (hn : sc.Noted) : (sc.deliver keyPrefix channel).Noted := by
  rcases deliver_cases sc keyPrefix channel with ⟨-, -, h⟩ | h
  · rw [h]
    exact hn.imp_right fun hn => hn.imp_right fun hn => hn.imp_right fun hn =>
      hn.imp_right (List.mem_append_left _)
  · rw [h]
    exact hn

/-- A message that is published is noted: who is not subscribed yet looks for the key again. -/
theorem Wired.noted (hw : sc.Wired) :
    (sc.deliver keyPrefix (cancelChannel keyPrefix sc.taskId)).Noted := by
  have hreceives : sc.subscribed = true →
      (sc.deliver keyPrefix (cancelChannel keyPrefix sc.taskId)).Noted := by
    intro hsubscribed
    unfold RedisCancelScope.deliver
    rw [if_pos ⟨hsubscribed, rfl⟩]
    exact Or.inr (Or.inr (Or.inr (Or.inr (List.mem_append_right _ (List.mem_singleton.mpr rfl)))))
  rcases hw with hevent | hw
  · exact Noted.deliver (Or.inl hevent)
  · split at hw
    · rename_i hstartup
      exact Noted.deliver (Or.inr (Or.inl hstartup))
    · rename_i hstartup
      exact Noted.deliver (Or.inr (Or.inr (Or.inl hstartup)))
    · exact hreceives hw.1
    · exact hreceives hw.1
    · exact hreceives hw.1
    · exact hw.elim
    · exact hw.elim

/-- A startup that has nothing to do is through or was cancelled. -/
theorem start_eq_none (h : sc.start keyPrefix keys = none) :
    sc.startup = .done ∨ sc.startup = .cancelled := by
  unfold start at h
  split at h
  · split at h
    · exact nomatch h
    · exact nomatch h
  · exact nomatch h
  · split at h
    · exact nomatch h
    · exact nomatch h
  · exact nomatch h
  · exact nomatch h
  · exact Or.inl (by assumption)
  · exact Or.inr (by assumption)

theorem inbox_of_listen_eq_none (hlistener : sc.listener = .listening) (h : sc.listen = none) :
    sc.inbox = [] := by
  simp only [listen, hlistener] at h
  split at h
  · assumption
  · exact nomatch h
  · exact nomatch h

/-- A scope that has noted a request and has nothing left to do has its event set. -/
theorem Wired.detects (hw : sc.Wired) (hn : sc.Noted) (hstart : sc.start keyPrefix keys = none)
    (hlisten : sc.listen = none) : sc.event = true := by
  rcases hw with hevent | hw
  · exact hevent
  · rcases start_eq_none hstart with hstartup | hstartup
    · simp only [hstartup] at hw
      have hinbox := inbox_of_listen_eq_none hw.2 hlisten
      simpa [Noted, hstartup, hinbox] using hn
    · simp only [hstartup] at hw

/-! ### How long a startup and a listener go on -/

/-- How many steps the startup has left; the subscription is confirmed by a message. -/
def startupWork : StartupPhase → Nat
  | .firstExists => 6
  | .subscribe => 5
  | .secondExists => 3
  | .startListener => 2
  | .closing => 1
  | .done => 0
  | .cancelled => 0

def listenerWork : ListenerPhase → Nat
  | .absent => 0
  | .listening => 1
  | .leaving => 1
  | .ended => 0

def work (sc : RedisCancelScope) : Nat :=
  startupWork sc.startup + listenerWork sc.listener + sc.inbox.length

theorem work_start (h : sc.start keyPrefix keys = some sc') : sc'.work < sc.work := by
  cases startStep h with
  | found hstartup _ => simp [work, startupWork, hstartup]
  | missing hstartup _ => simp [work, startupWork, hstartup]
  | subscribe hstartup =>
    simp only [work, startupWork, hstartup, List.length_append, List.length_singleton]
    omega
  | foundAgain hstartup _ => simp [work, startupWork, hstartup]
  | missingAgain hstartup _ => simp [work, startupWork, hstartup]
  | listen hstartup =>
    simp only [work, startupWork, listenerWork, hstartup]
    omega
  | close hstartup => simp [work, startupWork, hstartup]

theorem work_listen (h : sc.listen = some sc') : sc'.work < sc.work := by
  cases listenStep h with
  | confirmed hlistener hinbox => simp [work, hinbox]
  | message hlistener hinbox => simp [work, listenerWork, hlistener, hinbox]
  | leave hlistener => simp [work, listenerWork, hlistener]

/-- The event is set by the key. -/
theorem start_event (h : sc.start keyPrefix keys = some sc') (hevent : sc'.event = true) :
    sc.event = true ∨ cancelKey keyPrefix sc.taskId ∈ keys := by
  cases startStep h with
  | found _ hkey => exact Or.inr hkey
  | foundAgain _ hkey => exact Or.inr hkey
  | _ => exact Or.inl hevent

theorem start_inbox (h : sc.start keyPrefix keys = some sc') (hmessage : .message ∈ sc'.inbox) :
    .message ∈ sc.inbox := by
  cases startStep h with
  | subscribe _ =>
    rcases List.mem_append.mp hmessage with hmessage | hmessage
    · exact hmessage
    · exact nomatch List.mem_singleton.mp hmessage
  | _ => exact hmessage

/-- The event is set by a message. -/
theorem listen_heard (h : sc.listen = some sc') (hheard : sc'.event = true ∨ .message ∈ sc'.inbox) :
    sc.event = true ∨ .message ∈ sc.inbox := by
  cases listenStep h with
  | confirmed _ hinbox =>
    rw [hinbox]
    exact hheard.imp_right (List.mem_cons_of_mem _)
  | message _ hinbox =>
    rw [hinbox]
    exact Or.inr List.mem_cons_self
  | leave _ => exact hheard

end RedisCancelScope


end A2AKit
