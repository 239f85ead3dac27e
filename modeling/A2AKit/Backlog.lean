/-
Backlogs and trimming.

Every XADD trims the stream to about `streamMaxlen` entries, oldest first, whether or
not they were delivered or acknowledged.  As long as the log from its oldest live entry
on is shorter than that whenever an entry is added (`Roomy`), only settled entries are
trimmed, and every operation stays readable or claimable until it is acknowledged or
dead-lettered.  A longer backlog loses its head.

An operation may have several entries, one after the other.  The ledger keeps track of
them: an entry that was replaced has a successor with a greater id, so the newest entry
of an operation is not replaced, and what holds of that entry holds of the operation.

* `operation_kept` — every operation that was added is acknowledged, dead-lettered, or
  live.
-/
import A2AKit.BrokerShutdown
import Mathlib.Data.Finset.Max

namespace A2AKit

variable {π : Type}

namespace BrokerSystem

/-- An entry of the operation is live, was acknowledged or dead-lettered, or is about to be
replaced. -/
def OpKept (cfg : BrokerConfig π) (events : List (BrokerEvent π)) (s : BrokerSystem π)
    (op : Operation π) : Prop :=
  ∃ id, .added id op ∈ events ∧ (.acknowledged id ∈ events ∨ .deadLettered id ∈ events ∨
    Replacing cfg s id ∨ ∃ e, e.id = id ∧ e.data.op = op ∧ s.redis.stream.Live e)

/-- How the events account for the entries. -/
structure Ledger (events : List (BrokerEvent π)) (s : BrokerSystem π) : Prop where
  entry : ∀ e ∈ s.redis.stream.entries, .added e.id e.data.op ∈ events
  delivery : ∀ d ∈ s.deliveries, .added d.id d.fields.op ∈ events
  bounded : ∀ id op, .added id op ∈ events → id ≤ s.redis.stream.lastId
  functional : ∀ id op op', .added id op ∈ events → .added id op' ∈ events → op = op'
  successor : ∀ id, .replaced id ∈ events →
    ∃ op id', .added id op ∈ events ∧ id < id' ∧ .added id' op ∈ events

variable {cfg : BrokerConfig π} {s s' : BrokerSystem π} {events new : List (BrokerEvent π)}
  {i : Nat} {d : Delivery π} {stage : Stage}

/-- What a step delivers are entries of the log. -/
def DeliversFrom (s s' : BrokerSystem π) : Prop :=
  ∀ d' ∈ s'.deliveries, (∃ d ∈ s.deliveries, d.id = d'.id ∧ d.fields = d'.fields) ∨
    ∃ e ∈ s.redis.stream.entries, e.id = d'.id ∧ e.data = d'.fields

theorem DeliversFrom.added (h : DeliversFrom s s') (hl : Ledger events s) {d' : Delivery π}
    (hd' : d' ∈ s'.deliveries) : .added d'.id d'.fields.op ∈ events := by
  rcases h d' hd' with ⟨d, hd, hid, hfields⟩ | ⟨e, he, hid, hdata⟩
  · rw [← hid, ← hfields]
    exact hl.delivery d hd
  · rw [← hid, ← hdata]
    exact hl.entry e he

theorem deliversFrom_setStage (hi : s.deliveries[i]? = some d) (stage : Stage)
    (redis : BrokerRedis π) : DeliversFrom s { s.setStage i d stage with redis } := by
  intro d' hd'
  rcases mem_setStage hd' with rfl | hd'
  · exact Or.inl ⟨d, List.mem_of_getElem? hi, rfl, rfl⟩
  · exact Or.inl ⟨d', hd', rfl, rfl⟩

theorem deliversFrom_same (h : s'.deliveries = s.deliveries) : DeliversFrom s s' :=
  fun d' hd' => Or.inl ⟨d', h ▸ hd', rfl, rfl⟩

/-- A step that adds no entry. -/
theorem Ledger.quiet (h : Ledger events s)
    (hentries : s'.redis.stream.entries = s.redis.stream.entries)
    (hlast : s'.redis.stream.lastId = s.redis.stream.lastId) (hdel : DeliversFrom s s')
    (hnew : ∀ e ∈ new, (∀ id op, e ≠ .added id op) ∧ ∀ id, e ≠ .replaced id) :
    Ledger (events ++ new) s' := by
  have hadded {id : StreamId} {op : Operation π} (hid : .added id op ∈ events ++ new) :
      .added id op ∈ events :=
    (List.mem_append.mp hid).resolve_right fun hid => (hnew _ hid).1 id op rfl
  exact {
    entry := fun e he => List.mem_append_left _ (h.entry e (hentries ▸ he))
    delivery := fun d' hd' => List.mem_append_left _ (hdel.added h hd')
    bounded := fun id op hid => hlast ▸ h.bounded id op (hadded hid)
    functional := fun id op op' hid hid' => h.functional id op op' (hadded hid) (hadded hid')
    successor := fun id hrep => by
      have hrep' := (List.mem_append.mp hrep).resolve_right fun hrep => (hnew _ hrep).2 id rfl
      obtain ⟨op, id', hid, hlt, hid'⟩ := h.successor id hrep'
      exact ⟨op, id', List.mem_append_left _ hid, hlt, List.mem_append_left _ hid'⟩ }

/-- A step that adds an entry, possibly in place of another one. -/
theorem Ledger.add (h : Ledger events s) {maxlen k : Nat} {y : StreamId} {fields : OpFields π}
    {op : Operation π} {stream : GroupStream StreamId ConsumerName (OpFields π)}
    (hop : fields.op = op) (hadd : s.redis.stream.add maxlen y k fields = some stream)
    (hentries : s'.redis.stream.entries = stream.entries)
    (hlast : s'.redis.stream.lastId = stream.lastId) (hdel : DeliversFrom s s')
    (hnew : new = [.added y op] ∨
      ∃ x, new = [.added y op, .replaced x] ∧ .added x op ∈ events) :
    Ledger (events ++ new) s' := by
  obtain ⟨hlt, -, -, hlast', -, -⟩ := GroupStream.add_eq_some hadd
  have hmem : .added y op ∈ events ++ new := by
    rcases hnew with rfl | ⟨x, rfl, -⟩ <;> simp
  have hadded {id : StreamId} {op' : Operation π} (hid : .added id op' ∈ events ++ new) :
      .added id op' ∈ events ∨ id = y ∧ op' = op := by
    rcases hnew with rfl | ⟨x, rfl, -⟩ <;> simpa using hid
  -- the stream gives every entry an id above all former ones
  have hfresh {op' : Operation π} (hy : .added y op' ∈ events) : False :=
    absurd (h.bounded y op' hy) (not_le.mpr hlt)
  exact {
    entry := fun e he => by
      rcases GroupStream.mem_of_add hadd (hentries ▸ he) with he | rfl
      · exact List.mem_append_left _ (h.entry e he)
      · subst hop
        exact hmem
    delivery := fun d' hd' => List.mem_append_left _ (hdel.added h hd')
    bounded := fun id op' hid => by
      rw [hlast, hlast']
      rcases hadded hid with hid | ⟨rfl, -⟩
      · exact le_trans (h.bounded id op' hid) (le_of_lt hlt)
      · exact le_refl _
    functional := fun id op₁ op₂ h₁ h₂ => by
      rcases hadded h₁ with h₁ | ⟨rfl, rfl⟩
      · rcases hadded h₂ with h₂ | ⟨rfl, rfl⟩
        · exact h.functional id op₁ op₂ h₁ h₂
        · exact (hfresh h₁).elim
      · rcases hadded h₂ with h₂ | ⟨-, rfl⟩
        · exact (hfresh h₂).elim
        · rfl
    successor := fun id hrep => by
      -- what was replaced before has its successor; the entry replaced now has the new one
      have hcases : .replaced id ∈ events ∨ .added id op ∈ events := by
        rcases hnew with rfl | ⟨x, rfl, hx⟩
        · exact Or.inl (by simpa using hrep)
        · have hrep' : .replaced id ∈ events ∨ id = x := by simpa using hrep
          rcases hrep' with hrep' | rfl
          · exact Or.inl hrep'
          · exact Or.inr hx
      rcases hcases with hrep | hx
      · obtain ⟨op', id', hid, hlt', hid'⟩ := h.successor id hrep
        exact ⟨op', id', List.mem_append_left _ hid, hlt', List.mem_append_left _ hid'⟩
      · exact ⟨op, y, List.mem_append_left _ hx, lt_of_le_of_lt (h.bounded id op hx) hlt, hmem⟩ }

/-- A request of a move. -/
theorem Ledger.sent (h : Ledger events s) (hi : s.deliveries[i]? = some d)
    {redis : BrokerRedis π} {pick : Pick} {move : BrokerMove} {sent : Nat}
    (hsent : Sent cfg pick s.redis d move sent redis new) :
    Ledger (events ++ new) { s.setStage i d stage with redis } := by
  have hdel := deliversFrom_setStage hi stage redis
  have hadded := h.delivery d (List.mem_of_getElem? hi)
  cases hsent with
  | requeue hadd => exact h.add rfl hadd rfl rfl hdel (Or.inr ⟨d.id, rfl, hadded⟩)
  | readd _ hop _ hadd => exact h.add hop hadd rfl rfl hdel (Or.inr ⟨d.id, rfl, hadded⟩)
  | letter _ | settle _ | ack _ | retry _ | clear _ => exact h.quiet rfl rfl hdel (by simp)

theorem Ledger.step {a : BrokerAction π} (h : Ledger events s)
    (hstep : s.step cfg a = some (s', new)) : Ledger (events ++ new) s' := by
  -- `receive` and `claim` both add a delivery of an entry of the stream
  have hdeliver {c : ConsumerName} {e : StreamEntry StreamId (OpFields π)} {stage : Stage}
      {stream : GroupStream StreamId ConsumerName (OpFields π)}
      (he : e ∈ s.redis.stream.entries) (hentries : stream.entries = s.redis.stream.entries)
      (hlast : stream.lastId = s.redis.stream.lastId) :
      Ledger (events ++ []) ((s.setStream stream).deliver c e stage) := by
    refine h.quiet hentries hlast (fun d' hd' => ?_) (by simp)
    rcases List.mem_append.mp hd' with hd' | hd'
    · exact Or.inl ⟨d', hd', rfl, rfl⟩
    · obtain rfl := List.mem_singleton.mp hd'
      exact Or.inr ⟨e, he, rfl, rfl⟩
  cases a with
  | runTask payload pick =>
    obtain ⟨stream, hadd, rfl, rfl⟩ := step_runTask hstep
    exact h.add rfl hadd rfl rfl (deliversFrom_same rfl) (Or.inl rfl)
  | enter c =>
    obtain ⟨rfl, -, status, -, rfl⟩ := step_status (Or.inl rfl) hstep
    exact h.quiet rfl rfl (deliversFrom_same rfl) (by simp)
  | shutdown c =>
    obtain ⟨rfl, -, status, -, rfl⟩ := step_status (Or.inr rfl) hstep
    exact h.quiet rfl rfl (deliversFrom_same rfl) (by simp)
  | receive c =>
    obtain ⟨-, e, stream, hread, rfl, rfl⟩ := step_receive hstep
    obtain ⟨hund, -, hentries, hlast, -, -⟩ := GroupStream.read_eq_some hread
    exact hdeliver hund.1 hentries hlast
  | claim c id =>
    obtain ⟨-, o, stream, hclaim, rfl, hcases⟩ := step_claim hstep
    obtain ⟨-, hentries, hlast, -, hfound⟩ := GroupStream.claim_eq_some hclaim
    rcases hcases with ⟨e, rfl, rfl⟩ | ⟨-, rfl⟩
    · rcases hfound with ⟨e', he', -, heq, -⟩ | ⟨-, heq, -⟩
      · obtain rfl := Option.some.inj heq
        exact hdeliver he' hentries hlast
      · exact absurd heq (by simp)
    · exact h.quiet hentries hlast (deliversFrom_same rfl) (by simp)
  | advance i pick =>
    obtain ⟨d, redis, stage, hi, hturn, rfl⟩ := step_advance hstep
    have hdel := deliversFrom_setStage hi stage redis
    cases hturn with
    -- only the commands of a move can add entries
    | sent _ hsent => exact h.sent hi hsent
    | poison | retry | dispatch => exact h.quiet rfl rfl hdel (by simp)
    | requeue | reject | accept | tally | done | hand | refuse | markPoison | markFailed
    | success | failure => exact h.quiet rfl rfl hdel (by simp)
  | result i success =>
    obtain ⟨d, hd, hstep⟩ := Option.bind_eq_some_iff.mp hstep
    obtain ⟨stage, -, hstep⟩ := Option.bind_eq_some_iff.mp hstep
    obtain ⟨rfl, rfl⟩ := Prod.mk.inj (Option.some.inj hstep)
    exact h.quiet rfl rfl (deliversFrom_setStage hd stage s.redis) (by simp)
  | raise i executed pick =>
    obtain ⟨d, redis, stage, hi, hfailed, rfl⟩ := step_raise hstep
    have hdel := deliversFrom_setStage hi stage redis
    cases hfailed with
    | sent _ hsent => exact h.sent hi hsent
    | counted | uncounted | lost => exact h.quiet rfl rfl hdel (by simp)
  | interrupt i =>
    obtain ⟨d, hi, -, rfl, rfl⟩ := step_interrupt hstep
    exact h.quiet rfl rfl (deliversFrom_setStage hi .finished s.redis) (by simp)
  | exit c =>
    obtain ⟨-, rfl, rfl⟩ := step_exit hstep
    exact h.quiet rfl rfl (deliversFrom_same rfl) (by simp)
  | crash c =>
    obtain ⟨rfl, rfl⟩ := Prod.mk.inj (Option.some.inj hstep)
    refine h.quiet rfl rfl (fun d' hd' => Or.inl ?_) (by simp)
    obtain ⟨d, hd, rfl⟩ := List.mem_map.mp hd'
    refine ⟨d, hd, ?_⟩
    by_cases hc : d.consumer = c
    · rw [if_pos hc]
      exact ⟨rfl, rfl⟩
    · rw [if_neg hc]
      exact ⟨rfl, rfl⟩
  | tick dt =>
    obtain ⟨rfl, rfl⟩ := Prod.mk.inj (Option.some.inj hstep)
    exact h.quiet rfl rfl (deliversFrom_same rfl) (by simp)

theorem ledger_of_run {ok : BrokerSystem π → BrokerAction π → Prop} {tr : BrokerTrace π}
    (hrun : Run (BrokerSystem.step cfg) ok {} tr s) : Ledger (brokerEvents tr) s := by
  refine hrun.forward (P := fun tr s => Ledger (brokerEvents tr) s)
    (fun tr s a s' new h _ hstep => ?_) ?_
  · rw [brokerEvents_concat]
    exact h.step hstep
  · exact {
      entry := fun e he => absurd he List.not_mem_nil
      delivery := fun d hd => absurd hd List.not_mem_nil
      bounded := fun id op hid => absurd hid List.not_mem_nil
      functional := fun id op op' hid => absurd hid List.not_mem_nil
      successor := fun id hid => absurd hid List.not_mem_nil }

/-- The ids under which an operation was added. -/
def addedIds [DecidableEq π] (op : Operation π) (events : List (BrokerEvent π)) : List StreamId :=
  events.filterMap fun e => match e with
    | .added id op' => if op' = op then some id else none
    | _ => none

theorem mem_addedIds [DecidableEq π] {op : Operation π} {id : StreamId} :
    id ∈ addedIds op events ↔ .added id op ∈ events := by
  rw [addedIds, List.mem_filterMap]
  constructor
  · rintro ⟨e, he, heq⟩
    cases e with
    | added id' op' =>
      obtain ⟨rfl, rfl⟩ : op' = op ∧ id' = id := by simpa using heq
      exact he
    | replaced _ | deadLettered _ | acknowledged _ | dispatched _ _ => simp at heq
  · intro h
    exact ⟨_, h, if_pos rfl⟩

/-- An operation has a newest entry. -/
theorem exists_newest {op : Operation π} {id : StreamId} (h : .added id op ∈ events) :
    ∃ m, .added m op ∈ events ∧ ∀ id', .added id' op ∈ events → id' ≤ m := by
  classical
  have hne : (addedIds op events).toFinset.Nonempty :=
    ⟨id, List.mem_toFinset.mpr (mem_addedIds.mpr h)⟩
  obtain ⟨m, hm, hmax⟩ := (addedIds op events).toFinset.exists_max_image (fun id => id) hne
  refine ⟨m, mem_addedIds.mp (List.mem_toFinset.mp hm), fun id' hid' => ?_⟩
  exact hmax id' (List.mem_toFinset.mpr (mem_addedIds.mpr hid'))

/-- In every run without crashes in which the backlog is below the length to which the
stream is trimmed whenever an entry is added, an entry that was added stays in the log
until it is acknowledged, dead-lettered or replaced, and every operation is readable or
claimable until it is acknowledged or dead-lettered. -/
theorem operation_kept {tr : BrokerTrace π}
    (hrun : Run (BrokerSystem.step cfg) (fun s a => (Calm a ∧ Drained s a) ∧ Roomy cfg s a) {} tr s)
    {id : StreamId} {op : Operation π} (hadded : .added id op ∈ brokerEvents tr) :
    Kept cfg (brokerEvents tr) s id ∧ OpKept cfg (brokerEvents tr) s op := by
  have hinv := hrun.forward (P := fun tr s => KeptInv cfg (brokerEvents tr) s)
    (fun tr s a s' new h hok hstep => by
      rw [brokerEvents_concat]
      exact h.step hok.1.1 hok.2 hok.1.2 hstep)
    { kept := fun id op hid => absurd hid List.not_mem_nil
      lettered := fun d hd => absurd hd List.not_mem_nil
      bounded := fun d hd => absurd hd List.not_mem_nil }
  have hledger := ledger_of_run hrun
  refine ⟨hinv.kept id op hadded, ?_⟩
  obtain ⟨m, hm, hmax⟩ := exists_newest hadded
  refine ⟨m, hm, ?_⟩
  rcases hinv.kept m op hm with h | h | h | h | ⟨e, heid, he⟩
  · exact Or.inl h
  · exact Or.inr (Or.inl h)
  · -- the newest entry has no successor
    obtain ⟨op', id', hid, hlt, hid'⟩ := hledger.successor m h
    rw [hledger.functional m op' op hid hm] at hid'
    exact absurd (hmax id' hid') (not_le.mpr hlt)
  · exact Or.inr (Or.inr (Or.inl h))
  · refine Or.inr (Or.inr (Or.inr ⟨e, heid, ?_, he⟩))
    exact hledger.functional m e.data.op op (heid ▸ hledger.entry e he.1) hm

instance (cfg : BrokerConfig π) (s : BrokerSystem π) (a : BrokerAction π) :
    Decidable (Roomy cfg s a) :=
  match a with
  | .runTask _ _ => inferInstanceAs (Decidable (s.redis.stream.backlog < cfg.streamMaxlen))
  | .advance i _ =>
    inferInstanceAs (Decidable (∀ d ∈ s.deliveries[i]?, d.stage.adds cfg = true →
      s.redis.stream.backlog < cfg.streamMaxlen))
  | .crash _ | .raise _ _ _ | .enter _ | .receive _ | .claim _ _ | .exit _ | .result _ _
  | .interrupt _ | .shutdown _ | .tick _ => inferInstanceAs (Decidable True)

instance (a : BrokerAction π) : Decidable (Calm a) :=
  match a with
  | .crash _ | .raise _ _ _ => inferInstanceAs (Decidable False)
  | .runTask _ _ | .enter _ | .receive _ | .claim _ _ | .advance _ _ | .result _ _ | .interrupt _
  | .shutdown _ | .exit _ | .tick _ => inferInstanceAs (Decidable True)

/-- A stream of length two: the second operation comes when the first one is dispatched,
and the third one trims the first entry after it was acknowledged. -/
def keepsUp : List (BrokerAction String) :=
  [.runTask "a" ⟨toLex (1, 0), 0⟩, .enter 0, .receive 0, .advance 0 {}, .advance 0 {},
    .advance 0 {}, .runTask "b" ⟨toLex (2, 0), 0⟩, .result 0 true, .advance 0 {},
    .runTask "c" ⟨toLex (3, 0), 1⟩]

theorem keepsUp_kept : ∃ tr s,
    Run (BrokerSystem.step { streamMaxlen := 2 })
      (fun s a => (Calm a ∧ Drained s a) ∧ Roomy { streamMaxlen := 2 } s a) {} tr s ∧
      .added (toLex (2, 0)) ⟨1, "b"⟩ ∈ brokerEvents tr ∧
      Kept { streamMaxlen := 2 } (brokerEvents tr) s (toLex (2, 0)) ∧
      OpKept { streamMaxlen := 2 } (brokerEvents tr) s ⟨1, "b"⟩ := by
  have hrun := run_finalState (BrokerSystem.step { streamMaxlen := 2 })
    (fun s a => (Calm a ∧ Drained s a) ∧ Roomy { streamMaxlen := 2 } s a) {} keepsUp
    (by decide +kernel)
  have hadded : BrokerEvent.added (toLex (2, 0)) ⟨1, "b"⟩ ∈ brokerEvents (traceOf
      (BrokerSystem.step { streamMaxlen := 2 })
      (fun s a => (Calm a ∧ Drained s a) ∧ Roomy { streamMaxlen := 2 } s a) {} keepsUp) := by
    decide +kernel
  exact ⟨_, _, hrun, hadded, operation_kept hrun hadded⟩

/-- Three operations on a stream of length two, before anybody reads. -/
def fallsBehind : List (BrokerAction String) :=
  [.runTask "a" ⟨toLex (1, 0), 0⟩, .runTask "b" ⟨toLex (2, 0), 0⟩, .runTask "c" ⟨toLex (3, 0), 1⟩]

/-- The first operation was trimmed before it was delivered. -/
theorem fallsBehind_lost : ∃ tr s,
    Run (BrokerSystem.step { streamMaxlen := 2 }) (fun s a => Calm a ∧ Drained s a) {} tr s ∧
      .added (toLex (1, 0)) ⟨0, "a"⟩ ∈ brokerEvents tr ∧
      ¬Kept { streamMaxlen := 2 } (brokerEvents tr) s (toLex (1, 0)) ∧
      ¬OpKept { streamMaxlen := 2 } (brokerEvents tr) s ⟨0, "a"⟩ := by
  obtain ⟨tr, s, hrun, hevents, hdeliveries, hstream⟩ : ∃ tr s,
      Run (BrokerSystem.step { streamMaxlen := 2 }) (fun s a => Calm a ∧ Drained s a) {} tr s ∧
      brokerEvents tr = [.added (toLex (1, 0)) ⟨0, "a"⟩, .added (toLex (2, 0)) ⟨1, "b"⟩,
        .added (toLex (3, 0)) ⟨2, "c"⟩] ∧ s.deliveries = [] ∧
      ∀ e ∈ s.redis.stream.entries, e.id ≠ toLex (1, 0) :=
    ⟨_, _, run_finalState (BrokerSystem.step { streamMaxlen := 2 })
      (fun s a => Calm a ∧ Drained s a) {} fallsBehind (by decide +kernel), by decide +kernel,
      by decide +kernel, by decide +kernel⟩
  have hlost : ¬Kept { streamMaxlen := 2 } (brokerEvents tr) s (toLex (1, 0)) := by
    intro hkept
    rw [Kept, hevents] at hkept
    rcases hkept with h | h | h | ⟨i, d, attempt, now, hi, -⟩ | ⟨e, hid, he⟩
    · simp at h
    · simp at h
    · simp at h
    · rw [hdeliveries] at hi
      simp at hi
    · exact hstream e he.1 hid
  refine ⟨tr, s, hrun, by rw [hevents]; simp, hlost, ?_⟩
  rintro ⟨id, hid, hcases⟩
  rw [hevents] at hid
  obtain rfl : id = toLex (1, 0) := by simpa using hid
  refine hlost ?_
  rcases hcases with h | h | h | ⟨e, heid, -, he⟩
  · exact Or.inl h
  · exact Or.inr (Or.inl h)
  · exact .of_replacing h
  · exact .of_live heid he

end BrokerSystem

end A2AKit
