/-
Idempotency keys over Redis.

An entry says under which key a task is found, until it expires.  The key joins two strings that
may have the separator in them, and a delete removes the key of its task, whoever has it by then.
`KeysApart` excludes both: a create under the key of a task of another context and key, and a delete
that hits the entry of another task.

* `creates_scoped` — where the commands keep apart, a create finds exactly the tasks of its
  context and key, and no delete removes the entry of another task;
* `joined_keys` — two contexts that share a key.
-/
import A2AKit.RedisIndex

namespace A2AKit

open Keyspace

/-- The entry of a task that is stored has not expired. -/
def Young (ttl : IdempotencyTtl) (w : Keyspace) (h : TaskHash) : Prop :=
  w.clock < h.storedAt + ttl.seconds

instance (ttl : IdempotencyTtl) (w : Keyspace) (h : TaskHash) : Decidable (Young ttl w h) :=
  inferInstanceAs (Decidable (_ < _))

/-- The two tasks were created in the same context with the same key. -/
def SameScope (fields task : Task) : Prop :=
  task.contextId = fields.contextId ∧ task.idempotencyKey = fields.idempotencyKey

/-- A create does not come to the key of a young task of another scope, and a delete not to that
of another young task. -/
def KeysApart (ttl : IdempotencyTtl) {β : Type} : StorageCommand β → Keyspace → Prop
  | .createIdempotent key fields, w => ∀ t h, w.tasks.lookup t = some h →
    h.task.redisKey = some key → Young ttl w h → SameScope fields h.task
  | .deleteMulti _ taskId extraKey, w => ∀ t h, w.tasks.lookup t = some h →
    h.task.redisKey.isSome = true → h.task.redisKey = extraKey → Young ttl w h → t = taskId
  | _, _ => True

/-- The entries are those of stored tasks, and every young task has its own. -/
structure Filed (ttl : IdempotencyTtl) (w : Keyspace) : Prop where
  entry : ∀ key entry, w.idempotency.lookup key = some entry →
    ∃ h, w.tasks.lookup entry.taskId = some h ∧ h.task.redisKey = some key ∧
      entry.expiresAt = h.storedAt + ttl.seconds
  young : ∀ t h key, w.tasks.lookup t = some h → h.task.redisKey = some key → Young ttl w h →
    w.idempotency.lookup key = some ⟨t, h.storedAt + ttl.seconds⟩

section

variable {ttl : IdempotencyTtl} {w w' : Keyspace} {t : TaskId} {h : TaskHash} {key : String}

/-- What `GET` answers, by the entry. -/
theorem get_eq_some : w.get key = some t ↔ ∃ entry, w.idempotency.lookup key = some entry ∧
    entry.taskId = t ∧ w.clock < entry.expiresAt := by
  unfold Keyspace.get
  cases hentry : w.idempotency.lookup key with
  | none => exact iff_of_false nofun fun ⟨_, heq, _⟩ => nomatch heq
  | some entry =>
    dsimp only
    split
    · rename_i hlt
      constructor
      · intro heq
        exact ⟨entry, rfl, Option.some_inj.mp heq, hlt⟩
      · rintro ⟨_, heq, rfl, -⟩
        cases heq
        rfl
    · rename_i hge
      refine iff_of_false nofun ?_
      rintro ⟨_, heq, -, hlt⟩
      cases heq
      exact hge hlt

/-- A young task is found under its key. -/
theorem Filed.get (hw : Filed ttl w) (hh : w.tasks.lookup t = some h)
    (hkey : h.task.redisKey = some key) (hyoung : Young ttl w h) : w.get key = some t :=
  get_eq_some.mpr ⟨_, hw.young t h key hh hkey hyoung, rfl, hyoung⟩

/-- What is found is a young task with the key. -/
theorem Filed.found (hw : Filed ttl w) (hget : w.get key = some t) :
    ∃ h, w.tasks.lookup t = some h ∧ h.task.redisKey = some key ∧ Young ttl w h := by
  obtain ⟨entry, hentry, rfl, hlt⟩ := get_eq_some.mp hget
  obtain ⟨h, hh, hkey, hexpires⟩ := hw.entry key entry hentry
  refine ⟨h, hh, hkey, ?_⟩
  unfold Young
  omega

theorem lookup_used (hproper : Proper w) {fields : Task} (hfresh : fields.id ∉ w.used)
    (hh : w.tasks.lookup t = some h) : t ≠ fields.id := by
  rintro rfl
  exact hfresh (hproper.hash _ h hh).2

/-- The script stores a task, and the entry of its key, where it has found none. -/
theorem filed_scripted {fields : Task} (hw : Filed ttl w) (hproper : Proper w)
    (hget : w.get key = none) (hfresh : fields.id ∉ w.used) (hkey : fields.redisKey = some key) :
    Filed ttl (w.storeIdempotent ttl key fields) := by
  have hnew : (w.storeIdempotent ttl key fields).tasks.lookup fields.id =
      some ⟨fields, w.clock⟩ := AList.lookup_insert _
  constructor
  · intro key' entry hentry
    rcases lookup_idempotency_insert hentry with ⟨rfl, rfl⟩ | ⟨-, hold⟩
    · exact ⟨_, hnew, hkey, rfl⟩
    · obtain ⟨h, hh, hrest⟩ := hw.entry key' entry hold
      exact ⟨h, (AList.lookup_insert_ne (lookup_used hproper hfresh hh)).trans hh, hrest⟩
  · intro t h key' hh hkey' hyoung
    show (w.idempotency.insert key _).lookup key' = _
    rcases lookup_store hh with ⟨rfl, rfl⟩ | ⟨-, hold⟩
    · cases hkey.symm.trans hkey'
      exact AList.lookup_insert _
    · -- another young task with this key would have been found
      have hne : key' ≠ key := by
        rintro rfl
        rw [hw.get hold hkey' hyoung] at hget
        exact nomatch hget
      rw [AList.lookup_insert_ne hne]
      exact hw.young t h key' hold hkey' hyoung

theorem filed_store {fields : Task} (hw : Filed ttl w) (hproper : Proper w)
    (hfresh : fields.id ∉ w.used) (hkey : fields.redisKey = none) : Filed ttl (w.store fields) := by
  constructor
  · intro key entry hentry
    obtain ⟨h, hh, hrest⟩ := hw.entry key entry hentry
    exact ⟨h, (AList.lookup_insert_ne (lookup_used hproper hfresh hh)).trans hh, hrest⟩
  · intro t h key hh hkey' hyoung
    rcases lookup_store hh with ⟨-, rfl⟩ | ⟨-, hold⟩
    · exact nomatch hkey.symm.trans hkey'
    · exact hw.young t h key hold hkey' hyoung

/-- A delete that knows its task, and hits no entry of another young one. -/
theorem filed_remove {contextId : ContextId} {taskId : TaskId} {extraKey : Option String}
    (hw : Filed ttl w)
    (hknown : ∀ h, w.tasks.lookup taskId = some h → h.task.redisKey = extraKey)
    (hapart : ∀ t h, w.tasks.lookup t = some h → h.task.redisKey.isSome = true →
      h.task.redisKey = extraKey → Young ttl w h → t = taskId) :
    Filed ttl (w.remove contextId taskId extraKey) := by
  constructor
  · intro key entry hentry
    obtain ⟨hne, hold⟩ := lookup_idempotency_remove hentry
    obtain ⟨h, hh, hkey, hexpires⟩ := hw.entry key entry hold
    refine ⟨h, (AList.lookup_erase_ne ?_).trans hh, hkey, hexpires⟩
    rintro heq
    rw [heq] at hh
    exact hne ((hknown h hh).symm.trans hkey)
  · intro t h key hh hkey hyoung
    obtain ⟨hne, hold⟩ := lookup_remove hh
    have hfile := hw.young t h key hold hkey hyoung
    have hother : extraKey ≠ some key := fun heq =>
      hne (hapart t h hold (by rw [hkey]; rfl) (hkey.trans heq.symm) hyoung)
    cases extraKey with
    | none => exact hfile
    | some extra =>
      show (w.idempotency.erase extra).lookup key = _
      rw [AList.lookup_erase_ne fun heq => hother (by rw [heq])]
      exact hfile

theorem clients_keep_filed : ClientsKeep ttl (KeysApart ttl) (Filed ttl) where
  passes w w' _ hw hpasses := by
    obtain ⟨htasks, -, hentries, -, hclock⟩ := hpasses
    constructor
    · intro key entry hentry
      rw [hentries] at hentry
      rw [htasks]
      exact hw.entry key entry hentry
    · intro t h key hh hkey hyoung
      rw [htasks] at hh
      rw [hentries]
      exact hw.young t h key hh hkey (Nat.lt_of_le_of_lt hclock hyoung)
  keeps e w w' b hproper hw hcond hfresh hinformed hperf := by
    cases perform_effect hperf with
    | idle => exact hw
    | scripted key fields hget => exact filed_scripted hw hproper hget hfresh hinformed
    | stored fields => exact filed_store hw hproper hfresh hinformed
    | removed contextId taskId extraKey b =>
      exact filed_remove hw (fun h hh => (hinformed h hh).2) hcond
    | dropped contextId => exact ⟨hw.entry, hw.young⟩

/-- What the script finds was created in the same scope. -/
theorem matches_scope : Matches ttl (KeysApart ttl) (Filed ttl) SameScope := by
  refine ⟨fun w key fields t h _ hw hcond _ hget hh => ?_⟩
  obtain ⟨h', hh', hkey, hyoung⟩ := hw.found hget
  cases hh.symm.trans hh'
  exact hcond t h hh hkey hyoung

end

/-! ### What the moves of a run do -/

/-- A new task is stored only if no young one of its context and key is there. -/
def CreatesOnce (ttl : IdempotencyTtl) (w w' : Keyspace) : Prop :=
  ∀ t h key, w.tasks.lookup t = none → w'.tasks.lookup t = some h →
    nonEmptyKey h.task.idempotencyKey = some key → ∀ t' h', w.tasks.lookup t' = some h' →
      h'.task.contextId = h.task.contextId → h'.task.idempotencyKey = h.task.idempotencyKey →
        ¬ Young ttl w h'

/-- A task that is not deleted keeps its entry, until it expires. -/
def KeepsEntries (w w' : Keyspace) : Prop :=
  ∀ t h key, w.tasks.lookup t = some h → w'.tasks.lookup t = some h → w.get key = some t →
    w'.get key = some t ∨ ∃ entry, w.idempotency.lookup key = some entry ∧
      entry.expiresAt ≤ w'.clock

section

variable {ttl : IdempotencyTtl} {w w' : Keyspace}

theorem createsOnce_perform {β : Type} {e : StorageCommand β} {b : β} (hw : Filed ttl w)
    (hinformed : Informed e w) (hperf : perform ttl e w = some (w', b)) : CreatesOnce ttl w w' := by
  intro t h key hnone hnew hkey
  cases perform_effect hperf with
  | idle => exact nomatch hnone.symm.trans hnew
  | scripted redisKey fields hget =>
    intro t' h' hh' hcontext hsame hyoung
    rcases lookup_store hnew with ⟨-, rfl⟩ | ⟨-, hold⟩
    · -- the young task has the same key, and would have been found
      have hredis : h'.task.redisKey = some redisKey := by
        rw [← show fields.redisKey = some redisKey from hinformed]
        unfold Task.redisKey
        rw [hsame, hcontext]
      rw [hw.get hh' hredis hyoung] at hget
      exact nomatch hget
    · exact nomatch hnone.symm.trans hold
  | stored fields =>
    rcases lookup_store hnew with ⟨-, rfl⟩ | ⟨-, hold⟩
    · have hredis : fields.redisKey = none := hinformed
      unfold Task.redisKey at hredis
      rw [hkey] at hredis
      exact nomatch hredis
    · exact nomatch hnone.symm.trans hold
  | removed contextId taskId extraKey b => exact nomatch hnone.symm.trans (lookup_remove hnew).2
  | dropped contextId => exact nomatch hnone.symm.trans hnew

theorem keepsEntries_perform {β : Type} {e : StorageCommand β} {b : β} (hw : Filed ttl w)
    (hcond : KeysApart ttl e w) (hperf : perform ttl e w = some (w', b)) : KeepsEntries w w' := by
  intro t h key hh hh' hget
  obtain ⟨entry, hentry, htask, hlt⟩ := get_eq_some.mp hget
  refine Or.inl (get_eq_some.mpr ⟨entry, ?_, htask, ?_⟩)
  · cases perform_effect hperf with
    | idle => exact hentry
    | scripted redisKey fields hnone =>
      have hne : key ≠ redisKey := by
        rintro rfl
        rw [hget] at hnone
        exact nomatch hnone
      exact (AList.lookup_insert_ne hne).trans hentry
    | stored fields => exact hentry
    | removed contextId taskId extraKey b =>
      obtain ⟨hne, -⟩ := lookup_remove hh'
      obtain ⟨h₁, hh₁, hkey, hyoung⟩ := hw.found hget
      have hother : extraKey ≠ some key := fun heq =>
        hne (hcond t h₁ hh₁ (by rw [hkey]; rfl) (hkey.trans heq.symm) hyoung)
      cases extraKey with
      | none => exact hentry
      | some extra =>
        exact (AList.lookup_erase_ne fun heq => hother (by rw [heq])).trans hentry
    | dropped contextId => exact hentry
  · -- a command takes no time
    cases perform_effect hperf <;> exact hlt

theorem createsOnce_passes (h : Passes w w') : CreatesOnce ttl w w' := by
  intro t hash key hnone hnew
  rw [h.1] at hnew
  exact nomatch hnone.symm.trans hnew

theorem keepsEntries_passes (h : Passes w w') : KeepsEntries w w' := by
  intro t hash key _ _ hget
  obtain ⟨entry, hentry, htask, -⟩ := get_eq_some.mp hget
  by_cases hlt : w'.clock < entry.expiresAt
  · refine Or.inl (get_eq_some.mpr ⟨entry, ?_, htask, hlt⟩)
    rw [h.2.2.1]
    exact hentry
  · exact Or.inr ⟨entry, hentry, Nat.le_of_not_lt hlt⟩

end

/-! ### Runs -/

/-- What idempotency keys are for: a task of an earlier call has the context and the key of the
call that returns it; a new task is stored only where no young one with its context and key is
there; and a task that is not deleted keeps its entry. -/
structure CreatesScoped {ι : Type} (ttl : IdempotencyTtl) (calls : ι → StorageRequest)
    (c : (ι → Prog StorageCommand (Except Exc StorageAnswer × Unit)) × Keyspace)
    (ms : List (PoolMove ι Keyspace)) : Prop where
  own : ∀ i contextId message key task, calls i = .createTask contextId message (some key) →
    c.1 i = .ret (.ok (.created task), ()) → task.justCreated = false →
      task.contextId = contextId ∧ task.idempotencyKey = some key
  once : ∀ m ∈ ms, CreatesOnce ttl m.before m.after
  kept : ∀ m ∈ ms, KeepsEntries m.before m.after

section

variable {ι : Type} [DecidableEq ι] {ttl : IdempotencyTtl} {w : Keyspace}
  {c : (ι → Prog StorageCommand (Except Exc StorageAnswer × Unit)) × Keyspace}
  {ms : List (PoolMove ι Keyspace)}

theorem Vacant.filed (hw : Vacant w) : Filed ttl w := by
  refine ⟨fun key entry hentry => ?_, fun t h key hh => ?_⟩
  · rw [hw.idempotency, AList.lookup_empty] at hentry
    exact nomatch hentry
  · rw [hw.tasks, AList.lookup_empty] at hh
    exact nomatch hh

/-- **Idempotency is scoped by context and key, as long as the keys keep apart**: in every run of
any number of calls, whatever expires. -/
theorem creates_scoped (calls : ι → StorageRequest) (hw : Vacant w)
    (hrun : (keyspaceCrew ι ttl (KeysApart ttl)).Run (callPrograms calls, w) ms c) :
    CreatesScoped ttl calls c ms := by
  have hkeep : ClientsKeep ttl (KeysApart ttl) (Filed ttl) := clients_keep_filed
  have hfits := keyspace_fits (ι := ι) hkeep
    (G := fun m => CreatesOnce ttl m.before m.after ∧ KeepsEntries m.before m.after)
    (fun w w' _ _ h => ⟨createsOnce_passes h, keepsEntries_passes h⟩)
    fun j β e w w' b _ hfiled hcond _ hinformed hperf =>
      ⟨createsOnce_perform hfiled hinformed hperf, keepsEntries_perform hfiled hcond hperf⟩
  obtain ⟨-, hprogs, hmoves⟩ := Crew.Run.sound hfits hrun ⟨hw.proper, hw.filed⟩ fun i =>
    triple_run hkeep matches_scope (calls i) () w ⟨⟨hw.proper, hw.filed⟩, trivial⟩
  refine ⟨fun i contextId message key task hcall hret hold => ?_,
    fun m hm => (hmoves m hm).1, fun m hm => (hmoves m hm).2⟩
  have hpost := hprogs i
  rw [hret] at hpost
  have hanswer : AnswersWith SameScope (calls i) (.created task) := (hpost c.2 .refl).2
  rw [hcall] at hanswer
  obtain ⟨taskId, now, k, hk, hcontext, hkey⟩ := hanswer hold
  obtain ⟨heq, -⟩ := Option.filter_eq_some_iff.mp hk
  refine ⟨hcontext, ?_⟩
  rw [hkey, initialTask_idempotencyKey, heq]

end

/-! ### Two runs -/

instance (fields task : Task) : Decidable (SameScope fields task) :=
  inferInstanceAs (Decidable (_ ∧ _))

/-- `KeysApart`, over the hashes that are there. -/
def keysApart (ttl : IdempotencyTtl) {β : Type} (e : StorageCommand β) (w : Keyspace) : Bool :=
  match e with
  | .createIdempotent key fields => w.tasks.entries.all fun s =>
    s.2.task.redisKey ≠ some key || !decide (Young ttl w s.2) || decide (SameScope fields s.2.task)
  | .deleteMulti _ taskId extraKey => w.tasks.entries.all fun s =>
    s.2.task.redisKey.isNone || s.2.task.redisKey ≠ extraKey || !decide (Young ttl w s.2) ||
      s.1 = taskId
  | _ => true

theorem keysApart_iff {ttl : IdempotencyTtl} {β : Type} {e : StorageCommand β} {w : Keyspace}
    (h : keysApart ttl e w = true) : KeysApart ttl e w := by
  cases e with
  | createIdempotent key fields =>
    intro t hash hh hkey hyoung
    have hmem := List.all_eq_true.mp h ⟨t, hash⟩ (AList.mem_lookup_iff.mp hh)
    simpa [hkey, hyoung] using hmem
  | deleteMulti contextId taskId extraKey =>
    intro t hash hh hsome hkey hyoung
    have hmem := List.all_eq_true.mp h ⟨t, hash⟩ (AList.mem_lookup_iff.mp hh)
    rw [← hkey] at hmem
    simpa [Option.isSome_iff_ne_none.mp hsome, hyoung] using hmem
  | _ => trivial

/-- Two calls, one after the other; then another id is drawn. -/
def oneAfterTheOther : List (Crew.Cue Bool Keyspace) :=
  List.replicate 4 (Crew.Cue.program true) ++ Crew.Cue.env (fun w => { w with uuid := "u" }) ::
    List.replicate 4 (Crew.Cue.program false)

theorem passes_cues : ∀ f, Crew.Cue.env f ∈ oneAfterTheOther → ∀ w, Passes w (f w) := by
  intro f hf w
  obtain rfl : f = fun w => { w with uuid := "u" } := by simpa [oneAfterTheOther] using hf
  exact ⟨rfl, .refl _, rfl, rfl, Nat.le_refl _⟩

/-- Two creates with the same context and key. -/
def createTwice : Bool → StorageRequest := fun _ => .createTask "c" greeting (some "k")

/-- The second create has returned the task of the first one. -/
def foundEarlier
    (c : (Bool → Prog StorageCommand (Except Exc StorageAnswer × Unit)) × Keyspace) : Bool :=
  match c.1 false with
  | .ret (.ok (.created task), _) => !task.justCreated && task.id = "t"
  | _ => false

theorem creates_scoped_twice : ∃ ms c,
    (keyspaceCrew Bool {} (KeysApart {})).Run (callPrograms createTwice, { uuid := "t" }) ms c ∧
      foundEarlier c = true ∧ CreatesScoped {} createTwice c ms := by
  have hplay : ((keyspaceCrew Bool {} (KeysApart {})).play
      (fun _ _ e w => decide (Unrepeated e w) && keysApart {} e w)
      oneAfterTheOther
      (callPrograms createTwice, { uuid := "t" })).any foundEarlier = true := by
    decide +kernel
  have hok : ∀ (i : Bool) {β : Type} (e : StorageCommand β) w,
      (decide (Unrepeated e w) && keysApart {} e w) = true →
      (keyspaceCrew Bool {} (KeysApart {})).ok i e w := by
    intro i β e w h
    obtain ⟨hfresh, hapart⟩ := (Bool.and_eq_true _ _).mp h
    have hmet : Unrepeated e w ∧ KeysApart {} e w :=
      ⟨of_decide_eq_true hfresh, keysApart_iff hapart⟩
    exact hmet
  obtain ⟨ms, c, hrun, hfound⟩ := Crew.exists_run_of_check hok passes_cues foundEarlier hplay
  exact ⟨ms, c, hrun, hfound, creates_scoped createTwice ⟨rfl, rfl, rfl⟩ hrun⟩

/-- Two creates in different contexts, with different keys. -/
def createJoined : Bool → StorageRequest
  | true => .createTask "a:b" greeting (some "c")
  | false => .createTask "a" greeting (some "b:c")

/-- The second create has returned a task of another context. -/
def foundForeign
    (c : (Bool → Prog StorageCommand (Except Exc StorageAnswer × Unit)) × Keyspace) : Bool :=
  match c.1 false with
  | .ret (.ok (.created task), _) => !task.justCreated && task.contextId = "a:b"
  | _ => false

/-- The key of context `a:b` and key `c` is that of context `a` and key `b:c`. -/
theorem joined_keys : ¬ ∀ (ι : Type) (_ : DecidableEq ι) (ttl : IdempotencyTtl)
    (calls : ι → StorageRequest) (w : Keyspace) (ms : List (PoolMove ι Keyspace))
    (c : (ι → Prog StorageCommand (Except Exc StorageAnswer × Unit)) × Keyspace), Vacant w →
    (keyspaceCrew ι ttl fun _ _ => True).Run (callPrograms calls, w) ms c →
    CreatesScoped ttl calls c ms := by
  intro hall
  have hplay : ((keyspaceCrew Bool {} fun _ _ => True).play
      (fun _ _ e w => decide (Unrepeated e w))
      oneAfterTheOther
      (callPrograms createJoined, { uuid := "t" })).any foundForeign = true := by
    decide +kernel
  have hok : ∀ (i : Bool) {β : Type} (e : StorageCommand β) w,
      decide (Unrepeated e w) = true → (keyspaceCrew Bool {} fun _ _ => True).ok i e w :=
    fun _ _ _ _ h => ⟨of_decide_eq_true h, trivial⟩
  obtain ⟨ms, c, hrun, hfound⟩ := Crew.exists_run_of_check hok passes_cues foundForeign hplay
  have hscoped := hall Bool inferInstance {} createJoined { uuid := "t" } ms c ⟨rfl, rfl, rfl⟩ hrun
  unfold foundForeign at hfound
  split at hfound
  · rename_i task _ hret
    obtain ⟨hold, hcontext⟩ := (Bool.and_eq_true _ _).mp hfound
    obtain ⟨hown, -⟩ := hscoped.own false "a" greeting "b:c" task rfl hret
      (by simpa using hold)
    rw [of_decide_eq_true hcontext] at hown
    exact absurd hown (by decide)
  · exact nomatch hfound

end A2AKit
