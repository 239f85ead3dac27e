/-
How many copies of an operation there are.

An entry may be claimed while the consumer that holds it is still at work, and then two
deliveries of one entry can both add the operation again: `nack` and `_requeue_not_due`
send their XADD whether or not the XACK beside it took the entry off the pending list.
In runs in which a delivery puts its operation back only while the entry is pending, or
has no other delivery (`Owns`), the operation is never doubled.

What may still become a copy of an operation is a `Token`: an undelivered entry, a
pending one, the pipeline of `nack` between XACK and XADD, and the only delivery of an
entry as long as it may add the operation again.  A step that adds an entry uses up the
token of the entry it replaces, and no other step makes a token, so there is at most one.

* `operation_not_forked` — at most one live entry carries an operation, and no entry is
  replaced twice.
-/
import A2AKit.RetryBound

namespace A2AKit

variable {π : Type}

/-- The pipeline of `nack` has acknowledged the entry, and its XADD comes next. -/
def Stage.replacing (cfg : BrokerConfig π) : Stage → Bool
  | .moving (.nack attempt _) 1 => decide (attempt + 1 ≤ cfg.maxRetries)
  | _ => false

/-- The next request acknowledges the entry because the operation goes back to the stream. -/
def Stage.putsBack (cfg : BrokerConfig π) : Stage → Bool
  | .moving .requeue 0 => true
  | .moving (.nack attempt _) 0 => decide (attempt + 1 ≤ cfg.maxRetries)
  | _ => false

/-- The entries that were replaced. -/
def replacedIds (events : List (BrokerEvent π)) : List StreamId :=
  events.filterMap fun e => match e with
    | .replaced id => some id
    | _ => none

theorem replacedIds_append (events new : List (BrokerEvent π)) :
    replacedIds (events ++ new) = replacedIds events ++ replacedIds new :=
  List.filterMap_append

theorem mem_replacedIds {events : List (BrokerEvent π)} {id : StreamId} :
    id ∈ replacedIds events ↔ .replaced id ∈ events := by
  rw [replacedIds, List.mem_filterMap]
  constructor
  · rintro ⟨e, he, heq⟩
    cases e with
    | replaced id' => exact Option.some.inj heq ▸ he
    | added _ _ | deadLettered _ | acknowledged _ | dispatched _ _ => simp at heq
  · intro h
    exact ⟨_, h, rfl⟩

theorem eq_none_of_isSome {α : Type} {a b : Option α} (h : b.isSome → a.isSome) (ha : a = none) :
    b = none := by
  rw [ha] at h
  exact Option.not_isSome_iff_eq_none.mp fun hsome => absurd (h hsome) (by simp)

namespace BrokerSystem

/-- The live entries that carry the operation number `n`. -/
def liveCopies (n : Nat) (s : BrokerSystem π) : List (StreamEntry StreamId (OpFields π)) :=
  s.redis.stream.entries.filter fun e => s.redis.stream.isLive e && e.data.op.serial == n

/-- The entry `id` was given to nobody but the delivery number `i`. -/
def Sole (s : BrokerSystem π) (i : Nat) (id : StreamId) : Prop :=
  ∀ d ∈ s.deliveries.eraseIdx i, d.id ≠ id

/-- A delivery puts its operation back only while the entry is pending, or has no other
delivery. -/
def Owns (cfg : BrokerConfig π) (s : BrokerSystem π) : BrokerAction π → Prop
  | .advance i _ | .raise i _ _ => ∀ d ∈ s.deliveries[i]?, d.stage.putsBack cfg = true →
      (s.redis.stream.pending d.id).isSome ∨ Sole s i d.id
  | _ => True

/-- The entry `id` may still become a copy of the operation number `n`. -/
def Token (cfg : BrokerConfig π) (s : BrokerSystem π) (n : Nat) (id : StreamId) : Prop :=
  (∃ e, s.redis.stream.Undelivered e ∧ e.id = id ∧ e.data.op.serial = n) ∨
    ∃ i d, s.deliveries[i]? = some d ∧ d.id = id ∧ d.fields.op.serial = n ∧
      ((s.redis.stream.pending id).isSome ∨ d.stage.replacing cfg = true ∨
        d.stage.active cfg = true ∧ Sole s i id)

/-- What holds of the events so far and the state. -/
structure CopyInv (cfg : BrokerConfig π) (events : List (BrokerEvent π)) (s : BrokerSystem π) :
    Prop where
  delivered : ∀ d ∈ s.deliveries, d.id ≤ s.redis.stream.lastDelivered
  held : ∀ id, (s.redis.stream.pending id).isSome → ∃ d ∈ s.deliveries, d.id = id
  data : ∀ d ∈ s.deliveries, ∀ e ∈ s.redis.stream.entries, e.id = d.id → e.data.op = d.fields.op
  entrySerial : ∀ e ∈ s.redis.stream.entries, e.data.op.serial < s.nextSerial
  deliverySerial : ∀ d ∈ s.deliveries, d.fields.op.serial < s.nextSerial
  unheld : ∀ d ∈ s.deliveries, d.stage.replacing cfg = true → s.redis.stream.pending d.id = none
  alone : Unique (fun d d' => d.stage.replacing cfg = true ∧ d'.stage.replacing cfg = true ∧
    d.id = d'.id) s.deliveries
  unique : ∀ n id id', Token cfg s n id → Token cfg s n id' → id = id'
  known : ∀ id, .replaced id ∈ events → id ≤ s.redis.stream.lastId
  spent : ∀ id, .replaced id ∈ events → ∀ n, ¬Token cfg s n id
  once : (replacedIds events).Nodup

variable {cfg : BrokerConfig π} {s s' : BrokerSystem π} {events new : List (BrokerEvent π)}
  {i : Nat} {d : Delivery π} {stage : Stage} {n : Nat} {id : StreamId}

theorem sole_iff : Sole s i id ↔ ∀ j d, s.deliveries[j]? = some d → d.id = id → j = i := by
  constructor
  · intro h j d hj hid
    by_contra hne
    exact h d (List.mem_eraseIdx_iff_getElem?.mpr ⟨j, hne, hj⟩) hid
  · intro h d hd hid
    obtain ⟨j, hne, hj⟩ := List.mem_eraseIdx_iff_getElem?.mp hd
    exact hne (h j d hj hid)

/-! ### Tokens -/

/-- The deliveries of `s` are deliveries of `s'`, at the same places. -/
def Extends (s s' : BrokerSystem π) : Prop :=
  ∀ (j : Nat) (d : Delivery π), s.deliveries[j]? = some d →
    ∃ d' : Delivery π, s'.deliveries[j]? = some d' ∧ d'.id = d.id

theorem Sole.of_extends (h : Sole s' i id) (hext : Extends s s') : Sole s i id := by
  rw [sole_iff] at h ⊢
  intro j d hj hid
  obtain ⟨d', hj', hid'⟩ := hext j d hj
  exact h j d' hj' (hid'.trans hid)

/-- A delivery of `s'` was one of `s` that could do at least as much. -/
def Descends (cfg : BrokerConfig π) (s : BrokerSystem π) (j : Nat) (d' : Delivery π) : Prop :=
  ∃ d : Delivery π, s.deliveries[j]? = some d ∧ d.id = d'.id ∧ d.fields.op = d'.fields.op ∧
    (d'.stage.active cfg = true → d.stage.active cfg = true) ∧
    (d'.stage.replacing cfg = true →
      d.stage.replacing cfg = true ∨ Token cfg s d.fields.op.serial d.id)

/-- What a delivery contributes to the tokens, it has contributed before. -/
theorem Descends.token {j : Nat} {d' : Delivery π} (h : Descends cfg s j d')
    (hext : Extends s s') (hpend : (s.redis.stream.pending d'.id).isSome ∨
      d'.stage.replacing cfg = true ∨ d'.stage.active cfg = true ∧ Sole s' j d'.id) :
    Token cfg s d'.fields.op.serial d'.id := by
  obtain ⟨d, hj, hid, hop, hactive, hreplacing⟩ := h
  rw [← hid] at hpend
  rw [← hid, ← hop]
  rcases hpend with hpend | hrep | ⟨hact, hsole⟩
  · exact Or.inr ⟨j, d, hj, rfl, rfl, Or.inl hpend⟩
  · rcases hreplacing hrep with hrep | htoken
    · exact Or.inr ⟨j, d, hj, rfl, rfl, Or.inr (Or.inl hrep)⟩
    · exact htoken
  · exact Or.inr ⟨j, d, hj, rfl, rfl, Or.inr (Or.inr ⟨hactive hact, hsole.of_extends hext⟩)⟩

/-- A step that adds no entry and delivers none makes no token. -/
theorem Token.mono (h : Token cfg s' n id) (hext : Extends s s')
    (hund : ∀ e, s'.redis.stream.Undelivered e → s.redis.stream.Undelivered e)
    (hpend : ∀ id, (s'.redis.stream.pending id).isSome → (s.redis.stream.pending id).isSome)
    (hdesc : ∀ j d', s'.deliveries[j]? = some d' → Descends cfg s j d') : Token cfg s n id := by
  rcases h with ⟨e, he, hid, hn⟩ | ⟨j, d', hj, rfl, rfl, hcases⟩
  · exact Or.inl ⟨e, hund e he, hid, hn⟩
  · exact (hdesc j d' hj).token hext (hcases.imp_left (hpend d'.id))

theorem Token.of_live (h : CopyInv cfg events s) {e : StreamEntry StreamId (OpFields π)}
    (he : s.redis.stream.Live e) : Token cfg s e.data.op.serial e.id := by
  obtain ⟨hmem, hlt | hpend⟩ := he
  · exact Or.inl ⟨e, ⟨hmem, hlt⟩, rfl, rfl⟩
  · obtain ⟨d, hd, hid⟩ := h.held e.id hpend
    obtain ⟨j, hj⟩ := List.mem_iff_getElem?.mp hd
    refine Or.inr ⟨j, d, hj, hid, ?_, Or.inl hpend⟩
    rw [h.data d hd e hmem hid.symm]

/-- A token belongs to an entry that was added. -/
theorem Token.le_lastId (h : CopyInv cfg events s) (ht : Token cfg s n id) :
    id ≤ s.redis.stream.lastId := by
  rcases ht with ⟨e, he, rfl, -⟩ | ⟨j, d, hj, rfl, -, -⟩
  · exact s.redis.stream.bounded e he.1
  · exact le_trans (h.delivered d (List.mem_of_getElem? hj)) s.redis.stream.delivered_le

theorem Token.lt_nextSerial (h : CopyInv cfg events s) (ht : Token cfg s n id) : n < s.nextSerial := by
  rcases ht with ⟨e, he, -, rfl⟩ | ⟨j, d, hj, -, rfl, -⟩
  · exact h.entrySerial e he.1
  · exact h.deliverySerial d (List.mem_of_getElem? hj)

/-! ### Steps of a delivery -/

theorem extends_setStage (hi : s.deliveries[i]? = some d) (stage : Stage) (redis : BrokerRedis π) :
    Extends s { s.setStage i d stage with redis } := by
  intro j d' hj
  have hget := setStage_getElem? hi stage j
  by_cases hij : i = j
  · subst hij
    rw [if_pos rfl] at hget
    obtain rfl := Option.some.inj (hi.symm.trans hj)
    exact ⟨_, hget, rfl⟩
  · rw [if_neg hij] at hget
    exact ⟨d', hget.trans hj, rfl⟩

theorem descends_setStage (hi : s.deliveries[i]? = some d)
    (hactive : stage.active cfg = true → d.stage.active cfg = true)
    (hreplacing : stage.replacing cfg = true →
      d.stage.replacing cfg = true ∨ Token cfg s d.fields.op.serial d.id)
    {j : Nat} {d' : Delivery π} (hj : (s.setStage i d stage).deliveries[j]? = some d') :
    Descends cfg s j d' := by
  rw [setStage_getElem? hi] at hj
  split at hj
  · rename_i hij
    subst hij
    obtain rfl := Option.some.inj hj
    exact ⟨d, hi, rfl, rfl, hactive, hreplacing⟩
  · exact ⟨d', hj, rfl, rfl, fun h => h, Or.inl⟩

/-- A delivery takes a step, and no entry is added.  If it now is about to replace its
entry, the entry is settled and no other delivery replaces it. -/
theorem CopyInv.setStage (h : CopyInv cfg events s) (hi : s.deliveries[i]? = some d)
    {redis : BrokerRedis π} (hentries : redis.stream.entries = s.redis.stream.entries)
    (hdelivered : redis.stream.lastDelivered = s.redis.stream.lastDelivered)
    (hlast : redis.stream.lastId = s.redis.stream.lastId)
    (hpend : ∀ id, (redis.stream.pending id).isSome → (s.redis.stream.pending id).isSome)
    (hactive : stage.active cfg = true → d.stage.active cfg = true)
    (hreplacing : stage.replacing cfg = true → Token cfg s d.fields.op.serial d.id ∧
      redis.stream.pending d.id = none ∧ ∀ j d', s.deliveries[j]? = some d' → d'.id = d.id →
        d'.stage.replacing cfg = true → j = i)
    (hnew : ∀ id, .replaced id ∉ new) :
    CopyInv cfg (events ++ new) { s.setStage i d stage with redis } := by
  have hmem := List.mem_of_getElem? hi
  -- what owns an operation now owned it before
  have htoken {n : Nat} {id : StreamId}
      (ht : Token cfg { s.setStage i d stage with redis } n id) : Token cfg s n id := by
    refine ht.mono (extends_setStage hi stage redis) (fun e he => ?_) hpend fun j d' hj =>
      descends_setStage hi hactive (fun hrep => Or.inr (hreplacing hrep).1) hj
    exact ⟨hentries ▸ he.1, by rw [← hdelivered]; exact he.2⟩
  have hold {id : StreamId} (hid : .replaced id ∈ events ++ new) : .replaced id ∈ events :=
    (List.mem_append.mp hid).resolve_right (hnew id)
  have hkeep {P : Delivery π → Prop} (hP : P d → P { d with stage })
      (hall : ∀ d' ∈ s.deliveries, P d') : ∀ d' ∈ (s.setStage i d stage).deliveries, P d' := by
    intro d' hd'
    rcases mem_setStage hd' with rfl | hd'
    · exact hP (hall d hmem)
    · exact hall d' hd'
  exact {
    delivered := hkeep (fun hP => hP) fun d' hd' => by
      show d'.id ≤ redis.stream.lastDelivered
      rw [hdelivered]
      exact h.delivered d' hd'
    held := fun id hid => by
      obtain ⟨d', hd', hid'⟩ := h.held id (hpend id hid)
      obtain ⟨j, hj⟩ := List.mem_iff_getElem?.mp hd'
      obtain ⟨d'', hj', hid''⟩ := extends_setStage hi stage redis j d' hj
      exact ⟨d'', List.mem_of_getElem? hj', hid''.trans hid'⟩
    data := hkeep (fun hP => hP) fun d' hd' e he => h.data d' hd' e (hentries ▸ he)
    entrySerial := fun e he => h.entrySerial e (hentries ▸ he)
    deliverySerial := hkeep (fun hP => hP) h.deliverySerial
    unheld := fun d' hd' hrep => by
      rcases mem_setStage hd' with rfl | hd'
      · exact (hreplacing hrep).2.1
      · have hnone := h.unheld d' hd' hrep
        exact eq_none_of_isSome (hpend d'.id) hnone
    alone := by
      intro j k a b hj hk hR
      -- only the delivery at `i` can start to replace its entry
      have hplace {j : Nat} {a : Delivery π}
          (hj : (s.setStage i d stage).deliveries[j]? = some a) :
          j = i ∧ a = { d with stage } ∨ j ≠ i ∧ s.deliveries[j]? = some a := by
        rw [setStage_getElem? hi] at hj
        split at hj
        · rename_i hij
          exact Or.inl ⟨hij.symm, (Option.some.inj hj).symm⟩
        · rename_i hij
          exact Or.inr ⟨fun heq => hij heq.symm, hj⟩
      rcases hplace hj with ⟨rfl, rfl⟩ | ⟨hji, hj'⟩
      · rcases hplace hk with ⟨rfl, rfl⟩ | ⟨hki, hk'⟩
        · rfl
        · exact absurd ((hreplacing hR.1).2.2 k b hk' hR.2.2.symm hR.2.1) hki
      · rcases hplace hk with ⟨rfl, rfl⟩ | ⟨hki, hk'⟩
        · exact absurd ((hreplacing hR.2.1).2.2 j a hj' hR.2.2 hR.1) hji
        · exact h.alone j k a b hj' hk' hR
    unique := fun n id id' ht ht' => h.unique n id id' (htoken ht) (htoken ht')
    known := fun id hid => by
      show id ≤ redis.stream.lastId
      rw [hlast]
      exact h.known id (hold hid)
    spent := fun id hid n ht => h.spent id (hold hid) n (htoken ht)
    once := by
      have hnil : replacedIds new = [] :=
        List.eq_nil_iff_forall_not_mem.mpr fun id hid => hnew id (mem_replacedIds.mp hid)
      rw [replacedIds_append, hnil, List.append_nil]
      exact h.once }

/-- A delivery adds its operation again, and the entry is settled. -/
theorem CopyInv.readd (h : CopyInv cfg events s) (hi : s.deliveries[i]? = some d)
    {redis : BrokerRedis π} {stream : GroupStream StreamId ConsumerName (OpFields π)}
    {pick : Pick} {fields : OpFields π} {op : Operation π} (hop : fields.op = d.fields.op)
    (hadd : s.redis.stream.add cfg.streamMaxlen pick.id pick.trimmed fields = some stream)
    (hentries : redis.stream.entries = stream.entries)
    (hdelivered : redis.stream.lastDelivered = stream.lastDelivered)
    (hlast : redis.stream.lastId = stream.lastId)
    (hpend : ∀ id, (redis.stream.pending id).isSome → (s.redis.stream.pending id).isSome)
    (hnone : redis.stream.pending d.id = none) (hstage : stage.active cfg = false)
    (hstage' : stage.replacing cfg = false) (htoken : Token cfg s d.fields.op.serial d.id)
    (hothers : ∀ j d', s.deliveries[j]? = some d' → d'.id = d.id →
      d'.stage.replacing cfg = true → j = i) :
    CopyInv cfg (events ++ [.added pick.id op, .replaced d.id])
      { s.setStage i d stage with redis } := by
  obtain ⟨hlt, -, -, hlast', hdelivered', -⟩ := GroupStream.add_eq_some hadd
  have hmem := List.mem_of_getElem? hi
  have hext := extends_setStage hi stage redis
  -- the tokens are the new entry and those of other entries
  have htokens {n : Nat} {id : StreamId}
      (ht : Token cfg { s.setStage i d stage with redis } n id) :
      Token cfg s n id ∧ id ≠ d.id ∨ id = pick.id ∧ n = d.fields.op.serial := by
    rcases ht with ⟨e, he, rfl, rfl⟩ | ⟨j, d', hj, rfl, rfl, hcases⟩
    · have hlow : s.redis.stream.lastDelivered < e.id := by
        rw [← hdelivered', ← hdelivered]
        exact he.2
      rcases GroupStream.mem_of_add hadd (hentries ▸ he.1) with hmem' | rfl
      · refine Or.inl ⟨Or.inl ⟨e, ⟨hmem', hlow⟩, rfl, rfl⟩, fun heq => ?_⟩
        exact absurd (h.delivered d hmem) (not_le.mpr (heq ▸ hlow))
      · exact Or.inr ⟨rfl, by rw [hop]⟩
    · have hj' : (s.setStage i d stage).deliveries[j]? = some d' := hj
      have hdesc : Descends cfg s j d' :=
        descends_setStage hi (by simp [hstage]) (by simp [hstage']) hj'
      refine Or.inl ⟨hdesc.token hext (hcases.imp_left (hpend d'.id)), fun heq => ?_⟩
      rw [setStage_getElem? hi] at hj'
      rcases hcases with hsome | hrep | ⟨hact, hsole⟩
      · rw [heq, hnone] at hsome
        exact absurd hsome (by simp)
      · split at hj'
        · obtain rfl := Option.some.inj hj'
          simp [hstage'] at hrep
        · rename_i hij
          exact hij (hothers j d' hj' heq hrep).symm
      · split at hj'
        · obtain rfl := Option.some.inj hj'
          simp [hstage] at hact
        · rename_i hij
          obtain ⟨d₁, hi₁, hid₁⟩ := hext i d hi
          exact hij (sole_iff.mp hsole i d₁ hi₁ (hid₁.trans heq.symm))
  have hkeep {P : Delivery π → Prop} (hP : P d → P { d with stage })
      (hall : ∀ d' ∈ s.deliveries, P d') : ∀ d' ∈ (s.setStage i d stage).deliveries, P d' := by
    intro d' hd'
    rcases mem_setStage hd' with rfl | hd'
    · exact hP (hall d hmem)
    · exact hall d' hd'
  have hreplaced {id : StreamId}
      (hid : .replaced id ∈ events ++ [.added pick.id op, .replaced d.id]) :
      .replaced id ∈ events ∨ id = d.id := by simpa using hid
  exact {
    delivered := hkeep (fun hP => hP) fun d' hd' => by
      show d'.id ≤ redis.stream.lastDelivered
      rw [hdelivered, hdelivered']
      exact h.delivered d' hd'
    held := fun id hid => by
      obtain ⟨d', hd', hid'⟩ := h.held id (hpend id hid)
      obtain ⟨j, hj⟩ := List.mem_iff_getElem?.mp hd'
      obtain ⟨d'', hj', hid''⟩ := hext j d' hj
      exact ⟨d'', List.mem_of_getElem? hj', hid''.trans hid'⟩
    data := hkeep (fun hP => hP) fun d' hd' e he hid => by
      rcases GroupStream.mem_of_add hadd (hentries ▸ he) with he | rfl
      · exact h.data d' hd' e he hid
      · exact absurd (h.delivered d' hd') (not_le.mpr (hid ▸ (lt_add_id hadd).1))
    entrySerial := fun e he => by
      rcases GroupStream.mem_of_add hadd (hentries ▸ he) with he | rfl
      · exact h.entrySerial e he
      · show fields.op.serial < s.nextSerial
        rw [hop]
        exact h.deliverySerial d hmem
    deliverySerial := hkeep (fun hP => hP) h.deliverySerial
    unheld := fun d' hd' hrep => by
      rcases mem_setStage hd' with rfl | hd'
      · exact hnone
      · exact eq_none_of_isSome (hpend d'.id) (h.unheld d' hd' hrep)
    alone := h.alone.set hi (fun x hR => by simp [hstage'] at hR) fun x hR => by simp [hstage'] at hR
    unique := fun n id id' ht ht' => by
      rcases htokens ht with ⟨h₁, hne⟩ | ⟨rfl, rfl⟩
      · rcases htokens ht' with ⟨h₂, -⟩ | ⟨-, rfl⟩
        · exact h.unique n id id' h₁ h₂
        · exact absurd (h.unique _ _ _ h₁ htoken) hne
      · rcases htokens ht' with ⟨h₂, hne⟩ | ⟨rfl, -⟩
        · exact absurd (h.unique _ _ _ h₂ htoken) hne
        · rfl
    known := fun id hid => by
      show id ≤ redis.stream.lastId
      rw [hlast, hlast']
      rcases hreplaced hid with hid | rfl
      · exact le_trans (h.known id hid) (le_of_lt hlt)
      · exact le_trans (htoken.le_lastId h) (le_of_lt hlt)
    spent := fun id hid n ht => by
      rcases htokens ht with ⟨h₁, hne⟩ | ⟨rfl, -⟩
      · rcases hreplaced hid with hid | rfl
        · exact h.spent id hid n h₁
        · exact hne rfl
      · rcases hreplaced hid with hid | heq
        · exact absurd hlt (not_lt.mpr (h.known _ hid))
        · exact absurd hlt (not_lt.mpr (heq ▸ htoken.le_lastId h))
    once := by
      have hone : replacedIds [BrokerEvent.added pick.id op, .replaced d.id] = [d.id] := rfl
      rw [replacedIds_append, hone, List.nodup_append]
      refine ⟨h.once, List.nodup_singleton _, fun a ha b hb => ?_⟩
      obtain rfl := List.mem_singleton.mp hb
      rintro rfl
      exact h.spent _ (mem_replacedIds.mp ha) _ htoken }

/-- A delivery that owns its entry when it puts the operation back. -/
theorem token_of_owns (hi : s.deliveries[i]? = some d) (hactive : d.stage.active cfg = true)
    (howns : (s.redis.stream.pending d.id).isSome ∨ Sole s i d.id) :
    Token cfg s d.fields.op.serial d.id := by
  refine Or.inr ⟨i, d, hi, rfl, rfl, ?_⟩
  rcases howns with hpend | hsole
  · exact Or.inl hpend
  · exact Or.inr (Or.inr ⟨hactive, hsole⟩)

/-- Nobody else is replacing an entry that a delivery owns. -/
theorem CopyInv.not_replacing (h : CopyInv cfg events s) {j : Nat} {d' : Delivery π}
    (howns : (s.redis.stream.pending d.id).isSome ∨ Sole s i d.id)
    (hj : s.deliveries[j]? = some d') (hid : d'.id = d.id)
    (hrep : d'.stage.replacing cfg = true) : j = i := by
  rcases howns with hpend | hsole
  · have hnone := h.unheld d' (List.mem_of_getElem? hj) hrep
    rw [hid] at hnone
    rw [hnone] at hpend
    exact absurd hpend (by simp)
  · exact sole_iff.mp hsole j d' hj hid

/-- A request of a move; `stage` follows its answer or its exception. -/
theorem CopyInv.request (h : CopyInv cfg events s) (hi : s.deliveries[i]? = some d)
    {redis : BrokerRedis π} {pick : Pick} {move : BrokerMove} {sent : Nat}
    (hstage : d.stage = .moving move sent) (hsent : Sent cfg pick s.redis d move sent redis new)
    (hactive : stage.active cfg = true → d.stage.active cfg = true)
    (hnext : stage = .moving move (sent + 1) ∨ stage.replacing cfg = false)
    (hadded : .replaced d.id ∈ new → stage.active cfg = false ∧ stage.replacing cfg = false)
    (howns : d.stage.putsBack cfg = true →
      (s.redis.stream.pending d.id).isSome ∨ Sole s i d.id) :
    CopyInv cfg (events ++ new) { s.setStage i d stage with redis } := by
  have hquiet {redis : BrokerRedis π} {new : List (BrokerEvent π)}
      (hrep : (Stage.moving move (sent + 1)).replacing cfg = false)
      (hentries : redis.stream.entries = s.redis.stream.entries)
      (hdelivered : redis.stream.lastDelivered = s.redis.stream.lastDelivered)
      (hlast : redis.stream.lastId = s.redis.stream.lastId)
      (hpend : ∀ id, (redis.stream.pending id).isSome → (s.redis.stream.pending id).isSome)
      (hnew : ∀ id, .replaced id ∉ new) :
      CopyInv cfg (events ++ new) { s.setStage i d stage with redis } := by
    refine h.setStage hi hentries hdelivered hlast hpend hactive (fun hrep' => ?_) hnew
    rcases hnext with rfl | hnext
    · rw [hrep] at hrep'
      exact absurd hrep' (by simp)
    · rw [hnext] at hrep'
      exact absurd hrep' (by simp)
  have hmem := List.mem_of_getElem? hi
  cases hsent with
  | requeue hadd =>
    obtain ⟨hinactive, hrep⟩ := hadded (by simp)
    have hown := howns (by rw [hstage]; rfl)
    have hpending := (GroupStream.add_eq_some hadd).2.2.2.2.2
    refine h.readd hi rfl hadd rfl rfl rfl (fun id hid => ?_) ?_ hinactive hrep
      (token_of_owns hi (by rw [hstage]; rfl) hown) fun j d' hj hid hrep' =>
        h.not_replacing hown hj hid hrep'
    · rw [← hpending]
      exact GroupStream.isSome_of_ack hid
    · exact GroupStream.pending_ack_self
  | letter hmove =>
    refine hquiet ?_ rfl rfl rfl (fun _ hid => hid) (by simp)
    cases move with
    | nack attempt now =>
      rw [BrokerMove.letters, decide_eq_true_eq] at hmove
      simpa [Stage.replacing] using hmove
    | requeue | reject | poison _ | ack _ | ackPoison | ackFailed => rfl
  | settle hmove =>
    refine hquiet ?_ rfl rfl rfl (fun _ hid => GroupStream.isSome_of_ack hid) (by simp)
    cases move <;> rfl
  | ack hmove =>
    refine hquiet ?_ rfl rfl rfl (fun _ hid => GroupStream.isSome_of_ack hid) (by simp)
    cases move with
    | nack attempt now => simp [BrokerMove.acks] at hmove
    | requeue | reject | poison _ | ack _ | ackPoison | ackFailed => rfl
  | @retry attempt now hretry =>
    -- the delivery owns the entry that it acknowledges, so it may replace it
    have hown := howns (by rw [hstage]; simpa [Stage.putsBack] using hretry)
    refine h.setStage hi rfl rfl rfl (fun _ hid => GroupStream.isSome_of_ack hid) hactive
      (fun _ => ⟨?_, ?_, fun j d' hj hid hrep => h.not_replacing hown hj hid hrep⟩) (by simp)
    · exact token_of_owns hi (by rw [hstage]; simpa [Stage.active] using hretry) hown
    · exact GroupStream.pending_ack_self
  | @readd attempt now stream fields hretry hop _ hadd =>
    obtain ⟨hinactive, hrep⟩ := hadded (by simp)
    have hpending := (GroupStream.add_eq_some hadd).2.2.2.2.2
    have hreplacing : d.stage.replacing cfg = true := by
      rw [hstage]
      simpa [Stage.replacing] using hretry
    refine h.readd hi hop hadd rfl rfl rfl (fun id hid => ?_) ?_ hinactive hrep
      (Or.inr ⟨i, d, hi, rfl, rfl, Or.inr (Or.inl hreplacing)⟩) fun j d' hj hid hrep' =>
        h.alone j i d' d hj hi ⟨hrep', hreplacing, hid⟩
    · rw [← hpending]
      exact hid
    · show stream.pending d.id = none
      rw [hpending]
      exact h.unheld d hmem hreplacing
  | clear hclear =>
    refine hquiet ?_ rfl rfl rfl (fun _ hid => hid) (by simp)
    cases move with
    | nack attempt now =>
      obtain rfl : 2 = sent := Option.some.inj hclear
      rfl
    | requeue | reject | poison _ | ack _ | ackPoison | ackFailed => rfl

theorem Turn.active_of {r r' : BrokerRedis π} {now : Nat} (h : Turn cfg now r d r' stage new)
    (hstage : stage.active cfg = true) : d.stage.active cfg = true := by
  cases h with
  | requeue hd | reject hd => rcases hd with hd | hd <;> rw [hd] <;> rfl
  | accept hd | tally hd | poison hd | retry hd | hand hd | dispatch hd | success hd | failure hd =>
    rw [hd]
    rfl
  | sent hd _ =>
    rw [hd]
    exact active_succ hstage
  | @done move _ hd _ =>
    cases move with
    | poison _ =>
      rw [hd]
      rfl
    | requeue | reject | ack _ | nack _ _ | ackPoison | ackFailed =>
      simp [Delivery.done, Stage.active] at hstage
  | refuse | markPoison | markFailed => simp [Stage.active] at hstage

theorem raised_active {now : Nat} {move : BrokerMove}
    (h : (Delivery.raised cfg now move).active cfg = true) (sent : Nat) :
    (Stage.moving move sent).active cfg = true := by
  cases move with
  | ack _ => rfl
  | requeue | reject | poison _ | nack _ _ | ackPoison | ackFailed =>
    simp [Delivery.raised, Stage.active] at h

theorem raised_replacing (now : Nat) (move : BrokerMove) :
    (Delivery.raised cfg now move).replacing cfg = false := by
  cases move with
  | ack attempt =>
    rw [Delivery.raised, Delivery.afterFailure]
    split <;> rfl
  | requeue | reject | poison _ | nack _ _ | ackPoison | ackFailed => rfl

/-- The moves that add an operation again are over then. -/
theorem Sent.of_replaced {r r' : BrokerRedis π} {pick : Pick} {move : BrokerMove} {sent : Nat}
    (h : Sent cfg pick r d move sent r' new) (hnew : .replaced d.id ∈ new) (now : Nat) :
    ((Stage.moving move (sent + 1)).active cfg = false ∧
      (Stage.moving move (sent + 1)).replacing cfg = false) ∧
      (Delivery.raised cfg now move).active cfg = false := by
  cases h with
  | requeue => exact ⟨⟨rfl, rfl⟩, rfl⟩
  | readd => exact ⟨⟨by simp [Stage.active], rfl⟩, rfl⟩
  | letter | settle | ack | retry | clear => simp at hnew

/-- A step of a delivery. -/
theorem CopyInv.turn {redis : BrokerRedis π} (h : CopyInv cfg events s)
    (hi : s.deliveries[i]? = some d) (hturn : Turn cfg s.clock s.redis d redis stage new)
    (howns : d.stage.putsBack cfg = true →
      (s.redis.stream.pending d.id).isSome ∨ Sole s i d.id) :
    CopyInv cfg (events ++ new) { s.setStage i d stage with redis } := by
  have hactive := Turn.active_of hturn
  have hquiet (hstream : redis.stream = s.redis.stream) (hrep : stage.replacing cfg = false)
      (hnew : ∀ id, .replaced id ∉ new) :
      CopyInv cfg (events ++ new) { s.setStage i d stage with redis } :=
    h.setStage hi (by rw [hstream]) (by rw [hstream]) (by rw [hstream])
      (fun id hid => by rwa [hstream] at hid) hactive (by simp [hrep]) hnew
  cases hturn with
  | sent hstage hsent =>
    exact h.request hi hstage hsent hactive (Or.inl rfl) (fun hnew => (Sent.of_replaced hsent hnew 0).1)
      howns
  | @done move sent _ _ =>
    refine hquiet rfl ?_ (by simp)
    cases move <;> rfl
  | @failure attempt _ =>
    refine hquiet rfl ?_ (by simp)
    rw [Delivery.afterFailure]
    split <;> rfl
  | requeue | reject | accept | tally | hand | refuse | markPoison | markFailed | success =>
    exact hquiet rfl rfl (by simp)
  | poison | retry | dispatch => exact hquiet rfl rfl (by simp)

/-- An exception of a request. -/
theorem CopyInv.failed {redis : BrokerRedis π} (h : CopyInv cfg events s)
    (hi : s.deliveries[i]? = some d) (hfailed : Failed cfg s.clock s.redis d redis stage new)
    (howns : d.stage.putsBack cfg = true →
      (s.redis.stream.pending d.id).isSome ∨ Sole s i d.id) :
    CopyInv cfg (events ++ new) { s.setStage i d stage with redis } := by
  cases hfailed with
  | counted hstage | uncounted hstage =>
    refine h.setStage hi rfl rfl rfl (fun _ hid => hid) (fun hact => ?_) (by simp [Stage.replacing])
      (by simp)
    simp [Stage.active] at hact
  | @sent pick move sent redis new hstage hsent =>
    refine h.request hi hstage hsent (fun hact => ?_) (Or.inr (raised_replacing _ move))
      (fun hnew => ⟨(Sent.of_replaced hsent hnew _).2, raised_replacing _ move⟩) howns
    rw [hstage]
    exact raised_active hact sent
  | @lost move sent hstage =>
    refine h.setStage hi rfl rfl rfl (fun _ hid => hid) (fun hact => ?_)
      (by simp [raised_replacing]) (by simp)
    rw [hstage]
    exact raised_active hact sent

/-! ### Steps of the system -/

/-- A step that adds no entry and delivers none; stages may be given up. -/
theorem CopyInv.shrink (h : CopyInv cfg events s)
    (hentries : s'.redis.stream.entries = s.redis.stream.entries)
    (hdelivered : s'.redis.stream.lastDelivered = s.redis.stream.lastDelivered)
    (hlast : s'.redis.stream.lastId = s.redis.stream.lastId)
    (hpend : ∀ id, (s'.redis.stream.pending id).isSome → (s.redis.stream.pending id).isSome)
    (hserial : s'.nextSerial = s.nextSerial) (f : Delivery π → Delivery π)
    (hdeliveries : s'.deliveries = s.deliveries.map f)
    (hf : ∀ d, f d = d ∨ f d = { d with stage := .finished }) : CopyInv cfg (events ++ []) s' := by
  rw [List.append_nil]
  have hid (d : Delivery π) : (f d).id = d.id ∧ (f d).fields = d.fields := by
    rcases hf d with heq | heq <;> rw [heq] <;> exact ⟨rfl, rfl⟩
  -- a delivery that was given up replaces nothing
  have hrep {d : Delivery π} (hrep : (f d).stage.replacing cfg = true) : f d = d := by
    rcases hf d with heq | heq
    · exact heq
    · simp [heq, Stage.replacing] at hrep
  have hext : Extends s s' := by
    intro j d hj
    refine ⟨f d, ?_, (hid d).1⟩
    rw [hdeliveries, List.getElem?_map, hj]
    rfl
  have hmem {d' : Delivery π} (hd' : d' ∈ s'.deliveries) : ∃ d ∈ s.deliveries, f d = d' := by
    rw [hdeliveries] at hd'
    exact List.mem_map.mp hd'
  have htoken {n : Nat} {id : StreamId} (ht : Token cfg s' n id) : Token cfg s n id := by
    refine ht.mono hext (fun e he => ?_) hpend fun j d' hj => ?_
    · exact ⟨hentries ▸ he.1, hdelivered ▸ he.2⟩
    · rw [hdeliveries, List.getElem?_map] at hj
      obtain ⟨d, hj', rfl⟩ := Option.map_eq_some_iff.mp hj
      refine ⟨d, hj', (hid d).1.symm, by rw [(hid d).2], fun hact => ?_, fun hr => ?_⟩
      · rcases hf d with heq | heq
        · rwa [heq] at hact
        · simp [heq, Stage.active] at hact
      · exact Or.inl (hrep hr ▸ hr)
  exact {
    delivered := fun d' hd' => by
      obtain ⟨d, hd, rfl⟩ := hmem hd'
      rw [(hid d).1, hdelivered]
      exact h.delivered d hd
    held := fun id hid' => by
      obtain ⟨d, hd, rfl⟩ := h.held id (hpend id hid')
      refine ⟨f d, ?_, (hid d).1⟩
      rw [hdeliveries]
      exact List.mem_map_of_mem hd
    data := fun d' hd' e he heq => by
      obtain ⟨d, hd, rfl⟩ := hmem hd'
      rw [(hid d).2]
      exact h.data d hd e (hentries ▸ he) (heq.trans (hid d).1)
    entrySerial := fun e he => hserial ▸ h.entrySerial e (hentries ▸ he)
    deliverySerial := fun d' hd' => by
      obtain ⟨d, hd, rfl⟩ := hmem hd'
      rw [(hid d).2, hserial]
      exact h.deliverySerial d hd
    unheld := fun d' hd' hr => by
      obtain ⟨d, hd, rfl⟩ := hmem hd'
      have heq := hrep hr
      rw [heq] at hr ⊢
      exact eq_none_of_isSome (hpend d.id) (h.unheld d hd hr)
    alone := by
      rw [hdeliveries]
      refine h.alone.map fun x y hR => ?_
      rwa [hrep hR.1, hrep hR.2.1] at hR
    unique := fun n id id' ht ht' => h.unique n id id' (htoken ht) (htoken ht')
    known := fun id hid' => hlast ▸ h.known id hid'
    spent := fun id hid' n ht => h.spent id hid' n (htoken ht)
    once := h.once }

/-- XADD of a new operation. -/
theorem CopyInv.runTask (h : CopyInv cfg events s) {pick : Pick} {fields : OpFields π}
    {stream : GroupStream StreamId ConsumerName (OpFields π)} {op : Operation π}
    (hadd : s.redis.stream.add cfg.streamMaxlen pick.id pick.trimmed fields = some stream)
    (hop : fields.op.serial = s.nextSerial) :
    CopyInv cfg (events ++ [.added pick.id op])
      { s.setStream stream with nextSerial := s.nextSerial + 1 } := by
  obtain ⟨hlt, -, -, hlast, hdelivered, hpending⟩ := GroupStream.add_eq_some hadd
  have hold {id : StreamId} (hid : .replaced id ∈ events ++ [BrokerEvent.added pick.id op]) :
      .replaced id ∈ events := by simpa using hid
  -- the new entry is the only new token
  have htokens {n : Nat} {id : StreamId}
      (ht : Token cfg { s.setStream stream with nextSerial := s.nextSerial + 1 } n id) :
      Token cfg s n id ∨ id = pick.id ∧ n = s.nextSerial := by
    rcases ht with ⟨e, he, rfl, rfl⟩ | ⟨j, d, hj, rfl, rfl, hcases⟩
    · rcases GroupStream.mem_of_add hadd he.1 with hmem | rfl
      · exact Or.inl (Or.inl ⟨e, ⟨hmem, hdelivered ▸ he.2⟩, rfl, rfl⟩)
      · exact Or.inr ⟨rfl, hop⟩
    · refine Or.inl (Or.inr ⟨j, d, hj, rfl, rfl, hcases.imp_left fun hsome => ?_⟩)
      rw [← hpending]
      exact hsome
  exact {
    delivered := fun d hd => by
      show d.id ≤ stream.lastDelivered
      rw [hdelivered]
      exact h.delivered d hd
    held := fun id hid => h.held id (by rw [← hpending]; exact hid)
    data := fun d hd e he hid => by
      rcases GroupStream.mem_of_add hadd he with he | rfl
      · exact h.data d hd e he hid
      · exact absurd (h.delivered d hd) (not_le.mpr (hid ▸ (lt_add_id hadd).1))
    entrySerial := fun e he => by
      rcases GroupStream.mem_of_add hadd he with he | rfl
      · exact Nat.lt_succ_of_lt (h.entrySerial e he)
      · exact Nat.lt_succ_of_le (le_of_eq hop)
    deliverySerial := fun d hd => Nat.lt_succ_of_lt (h.deliverySerial d hd)
    unheld := fun d hd hrep => by
      show stream.pending d.id = none
      rw [hpending]
      exact h.unheld d hd hrep
    alone := h.alone
    unique := fun n id id' ht ht' => by
      rcases htokens ht with h₁ | ⟨rfl, rfl⟩
      · rcases htokens ht' with h₂ | ⟨-, rfl⟩
        · exact h.unique n id id' h₁ h₂
        · exact absurd (h₁.lt_nextSerial h) (lt_irrefl _)
      · rcases htokens ht' with h₂ | ⟨rfl, -⟩
        · exact absurd (h₂.lt_nextSerial h) (lt_irrefl _)
        · rfl
    known := fun id hid => by
      show id ≤ stream.lastId
      rw [hlast]
      exact le_trans (h.known id (hold hid)) (le_of_lt hlt)
    spent := fun id hid n ht => by
      rcases htokens ht with h₁ | ⟨rfl, -⟩
      · exact h.spent id (hold hid) n h₁
      · exact absurd hlt (not_lt.mpr (h.known _ (hold hid)))
    once := by
      have hnil : replacedIds [BrokerEvent.added pick.id op] = [] := rfl
      rw [replacedIds_append, hnil, List.append_nil]
      exact h.once }

/-- An entry that has a token is given to a consumer. -/
theorem CopyInv.deliver (h : CopyInv cfg events s) {c : ConsumerName}
    {e : StreamEntry StreamId (OpFields π)} {stream : GroupStream StreamId ConsumerName (OpFields π)}
    (hmem : e ∈ s.redis.stream.entries) (hentries : stream.entries = s.redis.stream.entries)
    (hlast : stream.lastId = s.redis.stream.lastId)
    (hpending : stream.pending = Function.update s.redis.stream.pending e.id (some c))
    (hle : s.redis.stream.lastDelivered ≤ stream.lastDelivered)
    (hid_le : e.id ≤ stream.lastDelivered) (htoken : Token cfg s e.data.op.serial e.id)
    (hfree : ∀ d ∈ s.deliveries, d.id = e.id → (s.redis.stream.pending e.id).isSome)
    (hstage : stage.replacing cfg = false) :
    CopyInv cfg (events ++ []) ((s.setStream stream).deliver c e stage) := by
  rw [List.append_nil]
  have hsplit {d : Delivery π} (hd : d ∈ s.deliveries ++ [⟨c, e.id, e.data, stage⟩]) :
      d ∈ s.deliveries ∨ d = ⟨c, e.id, e.data, stage⟩ :=
    (List.mem_append.mp hd).imp_right List.mem_singleton.mp
  -- the one entry that becomes pending has no delivery, or was pending before
  have hpend {d : Delivery π} (hd : d ∈ s.deliveries) (hsome : (stream.pending d.id).isSome) :
      (s.redis.stream.pending d.id).isSome := by
    by_cases heq : d.id = e.id
    · rw [heq]
      exact hfree d hd heq
    · rwa [hpending, Function.update_of_ne heq] at hsome
  have hext : Extends s ((s.setStream stream).deliver c e stage) := by
    intro j d hj
    refine ⟨d, ?_, rfl⟩
    show (s.deliveries ++ [_])[j]? = some d
    rw [List.getElem?_append_left (List.getElem?_eq_some_iff.mp hj).1, hj]
  -- the new delivery owns what its entry owned
  have htokens {n : Nat} {id : StreamId}
      (ht : Token cfg ((s.setStream stream).deliver c e stage) n id) : Token cfg s n id := by
    rcases ht with ⟨e', he', hid, hn⟩ | ⟨j, d, hj, rfl, rfl, hcases⟩
    · exact Or.inl ⟨e', ⟨hentries ▸ he'.1, lt_of_le_of_lt hle he'.2⟩, hid, hn⟩
    · have hj' : (s.deliveries ++ [⟨c, e.id, e.data, stage⟩])[j]? = some d := hj
      rw [List.getElem?_append] at hj'
      split at hj'
      · refine Or.inr ⟨j, d, hj', rfl, rfl, hcases.imp (hpend (List.mem_of_getElem? hj')) ?_⟩
        exact fun h => h.imp_right fun h => ⟨h.1, h.2.of_extends hext⟩
      · obtain rfl := List.mem_singleton.mp (List.mem_of_getElem? hj')
        exact htoken
  exact {
    delivered := fun d hd => by
      rcases hsplit hd with hd | rfl
      · exact le_trans (h.delivered d hd) hle
      · exact hid_le
    held := fun id hid => by
      by_cases heq : id = e.id
      · exact ⟨_, List.mem_append_right _ (List.mem_singleton_self _), heq.symm⟩
      · have hid' : (stream.pending id).isSome := hid
        rw [hpending, Function.update_of_ne heq] at hid'
        obtain ⟨d, hd, hid⟩ := h.held id hid'
        exact ⟨d, List.mem_append_left _ hd, hid⟩
    data := fun d hd a ha hid => by
      have ha' : a ∈ s.redis.stream.entries := hentries ▸ ha
      rcases hsplit hd with hd | rfl
      · exact h.data d hd a ha' hid
      · rw [s.redis.stream.increasing.eq_of_id ha' hmem hid]
    entrySerial := fun a ha => h.entrySerial a (hentries ▸ ha)
    deliverySerial := fun d hd => by
      rcases hsplit hd with hd | rfl
      · exact h.deliverySerial d hd
      · exact h.entrySerial e hmem
    unheld := fun d hd hrep => by
      rcases hsplit hd with hd | rfl
      · exact eq_none_of_isSome (hpend hd) (h.unheld d hd hrep)
      · simp [hstage] at hrep
    alone := h.alone.concat (fun d _ hR => by simp [hstage] at hR) fun d _ hR => by
      simp [hstage] at hR
    unique := fun n id id' ht ht' => h.unique n id id' (htokens ht) (htokens ht')
    known := fun id hid => by
      show id ≤ stream.lastId
      rw [hlast]
      exact h.known id hid
    spent := fun id hid n ht => h.spent id hid n (htokens ht)
    once := h.once }

theorem CopyInv.step {a : BrokerAction π} (h : CopyInv cfg events s) (hok : Owns cfg s a)
    (hstep : s.step cfg a = some (s', new)) : CopyInv cfg (events ++ new) s' := by
  -- steps that touch neither the stream nor a delivery
  have hsame {s₁ : BrokerSystem π} (hredis : s₁.redis = s.redis)
      (hdeliveries : s₁.deliveries = s.deliveries) (hserial : s₁.nextSerial = s.nextSerial) :
      CopyInv cfg (events ++ []) s₁ :=
    h.shrink (by rw [hredis]) (by rw [hredis]) (by rw [hredis]) (fun _ hid => by rwa [hredis] at hid)
      hserial (fun d => d) (by rw [hdeliveries, List.map_id']) fun d => Or.inl rfl
  cases a with
  | runTask payload pick =>
    obtain ⟨stream, hadd, rfl, rfl⟩ := step_runTask hstep
    exact h.runTask hadd rfl
  | enter c =>
    obtain ⟨rfl, -, status, -, rfl⟩ := step_status (Or.inl rfl) hstep
    exact hsame rfl rfl rfl
  | shutdown c =>
    obtain ⟨rfl, -, status, -, rfl⟩ := step_status (Or.inr rfl) hstep
    exact hsame rfl rfl rfl
  | receive c =>
    obtain ⟨-, e, stream, hread, rfl, rfl⟩ := step_receive hstep
    obtain ⟨hund, -, hentries, hlast, hdelivered, hpending⟩ := GroupStream.read_eq_some hread
    -- an entry that was not delivered yet is newer than every delivery
    refine h.deliver hund.1 hentries hlast hpending ?_ (le_of_eq hdelivered.symm)
      (Or.inl ⟨e, hund, rfl, rfl⟩) (fun d hd hid => ?_) rfl
    · rw [hdelivered]
      exact le_of_lt hund.2
    · exact absurd (h.delivered d hd) (not_le.mpr (hid ▸ hund.2))
  | claim c id =>
    obtain ⟨-, o, stream, hclaim, rfl, hcases⟩ := step_claim hstep
    obtain ⟨hpend, hentries, hlast, hdelivered, hfound⟩ := GroupStream.claim_eq_some hclaim
    -- XAUTOCLAIM finds the entry, or drops its id when the entry is gone
    rcases hfound with ⟨e, he, rfl, ho, hpending⟩ | ⟨-, ho, hpending⟩
    · obtain rfl : (s.setStream stream).deliver c e .claimed = s' := by
        rcases hcases with ⟨e', ho', rfl⟩ | ⟨ho', -⟩
        · obtain rfl := Option.some.inj (ho.symm.trans ho')
          rfl
        · rw [ho] at ho'
          exact absurd ho' (by simp)
      refine h.deliver he hentries hlast hpending (le_of_eq hdelivered.symm) ?_ ?_
        (fun _ _ _ => hpend) rfl
      · rw [hdelivered]
        exact s.redis.stream.pending_le e.id hpend
      · exact Token.of_live h ⟨he, Or.inr hpend⟩
    · obtain rfl : s.setStream stream = s' := by
        rcases hcases with ⟨e', ho', -⟩ | ⟨-, rfl⟩
        · rw [ho] at ho'
          exact absurd ho' (by simp)
        · rfl
      refine h.shrink hentries hdelivered hlast (fun id' hid => ?_) rfl (fun d => d) (List.map_id' _).symm
        fun d => Or.inl rfl
      have hid' : (stream.pending id').isSome := hid
      rw [hpending] at hid'
      exact GroupStream.isSome_of_ack hid'
  | advance i pick =>
    obtain ⟨d, redis, stage, hi, hturn, rfl⟩ := step_advance hstep
    exact h.turn hi hturn (hok d hi)
  | result i success =>
    obtain ⟨d, stage, hi, hturn, rfl⟩ := step_result hstep
    refine h.turn hi hturn fun hback => ?_
    obtain ⟨attempt, hstage⟩ := dispatching_of_result hstep hi
    simp [hstage, Stage.putsBack] at hback
  | raise i executed pick =>
    obtain ⟨d, redis, stage, hi, hfailed, rfl⟩ := step_raise hstep
    exact h.failed hi hfailed (hok d hi)
  | interrupt i =>
    obtain ⟨d, hi, -, rfl, rfl⟩ := step_interrupt hstep
    have hgiven : CopyInv cfg (events ++ []) { s.setStage i d .finished with redis := s.redis } :=
      h.setStage hi rfl rfl rfl (fun _ hid => hid) (by simp [Stage.active])
        (by simp [Stage.replacing]) (by simp)
    exact hgiven
  | exit c =>
    obtain ⟨-, rfl, rfl⟩ := step_exit hstep
    refine h.shrink rfl rfl rfl (fun id' hid => ?_) rfl (fun d => d) (List.map_id' _).symm fun d => Or.inl rfl
    -- the consumer is deleted with its pending entries
    have hid' : (if s.redis.stream.pending id' = some c then none
        else s.redis.stream.pending id').isSome := hid
    split at hid'
    · exact absurd hid' (by simp)
    · exact hid'
  | crash c =>
    obtain ⟨rfl, rfl⟩ := Prod.mk.inj (Option.some.inj hstep)
    refine h.shrink rfl rfl rfl (fun _ hid => hid) rfl _ rfl fun d => ?_
    by_cases hc : d.consumer = c
    · exact Or.inr (if_pos hc)
    · exact Or.inl (if_neg hc)
  | tick dt =>
    obtain ⟨rfl, rfl⟩ := Prod.mk.inj (Option.some.inj hstep)
    exact hsame rfl rfl rfl

/-- In every run in which a delivery puts its operation back only while its entry is
pending, or has no other delivery, at most one undelivered or pending entry carries an
operation, and no entry is replaced twice. -/
theorem operation_not_forked {tr : BrokerTrace π}
    (hrun : Run (BrokerSystem.step cfg) (Owns cfg) {} tr s) :
    (∀ n, (liveCopies n s).length ≤ 1) ∧ (replacedIds (brokerEvents tr)).Nodup := by
  have hinv : CopyInv cfg (brokerEvents tr) s := by
    refine hrun.forward (P := fun tr s => CopyInv cfg (brokerEvents tr) s)
      (fun tr s a s' new h hok hstep => ?_) ?_
    · rw [brokerEvents_concat]
      exact h.step hok hstep
    · have hnone (n : Nat) (id : StreamId) : ¬Token cfg ({} : BrokerSystem π) n id := by
        rintro (⟨e, he, -⟩ | ⟨i, d, hi, -⟩)
        · exact absurd he.1 List.not_mem_nil
        · exact absurd (List.mem_of_getElem? hi) List.not_mem_nil
      exact {
        delivered := fun d hd => absurd hd List.not_mem_nil
        held := fun id hid => absurd hid (by simp [GroupStream.empty])
        data := fun d hd => absurd hd List.not_mem_nil
        entrySerial := fun e he => absurd he List.not_mem_nil
        deliverySerial := fun d hd => absurd hd List.not_mem_nil
        unheld := fun d hd => absurd hd List.not_mem_nil
        alone := fun i j d d' hi => by simp at hi
        unique := fun n id id' ht => absurd ht (hnone n id)
        known := fun id hid => absurd hid List.not_mem_nil
        spent := fun id hid => absurd hid List.not_mem_nil
        once := List.nodup_nil }
  refine ⟨fun n => ?_, hinv.once⟩
  -- two live copies would have one id, and the ids of the log increase
  have hpair : (liveCopies n s).Pairwise fun e e' => e.id < e'.id :=
    s.redis.stream.increasing.sublist List.filter_sublist
  have hlive {e : StreamEntry StreamId (OpFields π)} (he : e ∈ liveCopies n s) :
      Token cfg s n e.id := by
    obtain ⟨hmem, hcond⟩ := List.mem_filter.mp he
    rw [Bool.and_eq_true, beq_iff_eq] at hcond
    exact hcond.2 ▸ Token.of_live hinv (GroupStream.live_iff.mpr ⟨hmem, hcond.1⟩)
  rcases hcopies : liveCopies n s with _ | ⟨e, _ | ⟨e', rest⟩⟩
  · exact Nat.zero_le 1
  · exact le_refl 1
  · rw [hcopies] at hpair hlive
    have hlt := List.rel_of_pairwise_cons hpair (List.mem_cons_self (a := e') (l := rest))
    have heq := hinv.unique n e.id e'.id (hlive List.mem_cons_self)
      (hlive (List.mem_cons_of_mem _ List.mem_cons_self))
    exact absurd hlt (heq ▸ lt_irrefl _)

instance (s : BrokerSystem π) (i : Nat) (id : StreamId) : Decidable (Sole s i id) :=
  inferInstanceAs (Decidable (∀ d ∈ s.deliveries.eraseIdx i, d.id ≠ id))

instance (cfg : BrokerConfig π) (s : BrokerSystem π) (a : BrokerAction π) :
    Decidable (Owns cfg s a) :=
  match a with
  | .advance i _ | .raise i _ _ =>
    inferInstanceAs (Decidable (∀ d ∈ s.deliveries[i]?, d.stage.putsBack cfg = true →
      (s.redis.stream.pending d.id).isSome ∨ Sole s i d.id))
  | .crash _ | .runTask _ _ | .enter _ | .receive _ | .claim _ _ | .exit _ | .result _ _
  | .interrupt _ | .shutdown _ | .tick _ => inferInstanceAs (Decidable True)

/-- The entry is claimed while its first holder is at work, and both handlers fail; the
first one nacks. -/
def claimedAtWork : List (BrokerAction String) :=
  [.runTask "op" ⟨toLex (1, 0), 0⟩, .enter 0, .enter 1, .receive 0, .advance 0 {}, .advance 0 {},
    .advance 0 {}, .claim 1 (toLex (1, 0)), .advance 1 {}, .advance 1 {}, .advance 1 {},
    .advance 1 {}, .result 0 false, .advance 0 {}, .advance 0 ⟨toLex (2, 0), 0⟩]

theorem claimedAtWork_not_forked : ∃ tr s, Run (BrokerSystem.step {}) (Owns {}) {} tr s ∧
    replacedIds (brokerEvents tr) = [toLex (1, 0)] ∧ (liveCopies 0 s).length = 1 ∧
    ∀ n, (liveCopies (π := String) n s).length ≤ 1 := by
  have hrun := run_finalState (BrokerSystem.step {}) (Owns {}) {} claimedAtWork (by decide +kernel)
  exact ⟨_, _, hrun, by decide +kernel, by decide +kernel, (operation_not_forked hrun).1⟩

/-- The second handler nacks as well: it has lost its claim, and its XADD makes a second
copy. -/
theorem nacked_twice_forks : ∃ (tr : BrokerTrace String) (s : BrokerSystem String),
    Run (BrokerSystem.step {}) (fun _ _ => True) {} tr s ∧ (liveCopies 0 s).length = 2 ∧
      replacedIds (brokerEvents tr) = [toLex (1, 0), toLex (1, 0)] :=
  ⟨_, _, run_finalState (BrokerSystem.step {}) (fun _ _ => True) {}
    (claimedAtWork ++ [.result 1 false, .advance 1 {}, .advance 1 ⟨toLex (3, 0), 0⟩])
    (by decide +kernel), by decide +kernel, by decide +kernel⟩

end BrokerSystem

end A2AKit
