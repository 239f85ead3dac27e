/-
The index of the contexts.

The set of a context lists its tasks.  A create writes hash and set together, and so does a
delete; only the last command of `delete_context`, which drops the set, does not look at the
hashes.

* `index_kept` — as long as that command finds the set empty, the sets and the hashes agree;
* `unindexed_task` — a task that is created before it is stored, and not in the set.
-/
import A2AKit.RedisKeyspace

namespace A2AKit

open Keyspace

/-- A task is in the set of a context if and only if its hash says so. -/
def IndexAgrees (w : Keyspace) : Prop :=
  ∀ contextId t, (contextId, t) ∈ w.members ↔
    ∃ h, w.tasks.lookup t = some h ∧ h.task.contextId = contextId

/-- `list_tasks` with and without a context agree on the tasks of the context. -/
def ListsAgree (w : Keyspace) : Prop :=
  ∀ contextId task, contextId ≠ "" →
    (task ∈ w.listTasks contextId ↔ task ∈ w.listTasks "" ∧ task.contextId = contextId)

/-- A set is dropped only if it is empty. -/
def DropsEmpty {β : Type} : StorageCommand β → Keyspace → Prop
  | .deleteSet contextId, w => w.memberIds contextId = []
  | _, _ => True

section

variable {ttl : IdempotencyTtl} {w w' : Keyspace} {contextId : ContextId} {t : TaskId}

theorem mem_memberIds : t ∈ w.memberIds contextId ↔ (contextId, t) ∈ w.members := by
  unfold memberIds
  rw [List.mem_filterMap]
  constructor
  · rintro ⟨⟨c, t'⟩, hmem, heq⟩
    split at heq
    · rename_i hc
      cases heq
      rwa [← show c = contextId from hc]
    · exact nomatch heq
  · intro hmem
    exact ⟨(contextId, t), hmem, if_pos rfl⟩

/-- A new hash and its member come together. -/
theorem indexed_store {fields : Task} (hw : IndexAgrees w) (hproper : Proper w)
    (hfresh : fields.id ∉ w.used) : IndexAgrees (w.store fields) := by
  have hnone : w.tasks.lookup fields.id = none := by
    cases hlookup : w.tasks.lookup fields.id with
    | none => rfl
    | some h => exact absurd (hproper.hash _ h hlookup).2 hfresh
  intro c t
  show (c, t) ∈ w.members.insert (fields.contextId, fields.id) ↔ _
  rw [List.mem_insert_iff, hw c t]
  by_cases ht : t = fields.id
  · subst ht
    constructor
    · rintro (heq | ⟨h, hh, -⟩)
      · obtain ⟨rfl, -⟩ := Prod.mk.inj heq
        exact ⟨_, AList.lookup_insert _, rfl⟩
      · rw [hnone] at hh
        exact nomatch hh
    · rintro ⟨h, hh, rfl⟩
      rcases lookup_store hh with ⟨-, rfl⟩ | ⟨hne, -⟩
      · exact Or.inl rfl
      · exact absurd rfl hne
  · constructor
    · rintro (heq | ⟨h, hh, hc⟩)
      · exact absurd (Prod.mk.inj heq).2 ht
      · exact ⟨h, (AList.lookup_insert_ne ht).trans hh, hc⟩
    · rintro ⟨h, hh, hc⟩
      rcases lookup_store hh with ⟨rfl, -⟩ | ⟨-, hold⟩
      · exact absurd rfl ht
      · exact Or.inr ⟨h, hold, hc⟩

/-- A hash and its member go together, where the delete knows the context of the task. -/
theorem indexed_remove {extraKey : Option String} (hw : IndexAgrees w)
    (hknown : ∀ h, w.tasks.lookup t = some h → h.task.contextId = contextId) :
    IndexAgrees (w.remove contextId t extraKey) := by
  intro c t'
  show (c, t') ∈ w.members.filter (· ≠ (contextId, t)) ↔ _
  rw [List.mem_filter, hw c t', decide_eq_true_eq]
  constructor
  · rintro ⟨⟨h, hh, hc⟩, hne⟩
    have ht : t' ≠ t := by
      rintro rfl
      exact hne (by rw [← hc, hknown h hh])
    exact ⟨h, (AList.lookup_erase_ne ht).trans hh, hc⟩
  · rintro ⟨h, hh, hc⟩
    obtain ⟨ht, hold⟩ := lookup_remove hh
    exact ⟨⟨h, hold, hc⟩, fun heq => ht (Prod.mk.inj heq).2⟩

theorem indexed_dropSet (hw : IndexAgrees w) (hempty : w.memberIds contextId = []) :
    IndexAgrees (w.dropSet contextId) := by
  intro c t
  show (c, t) ∈ w.members.filter (·.1 ≠ contextId) ↔ _
  rw [List.mem_filter, hw c t, decide_eq_true_eq]
  refine ⟨And.left, fun h => ⟨h, ?_⟩⟩
  rintro rfl
  have hmem : t ∈ w.memberIds c := mem_memberIds.mpr ((hw c t).mpr h)
  rw [hempty] at hmem
  exact nomatch hmem

theorem clients_keep_index : ClientsKeep ttl DropsEmpty IndexAgrees where
  passes w w' _ hw hpasses := by
    obtain ⟨htasks, hmembers, -, -, -⟩ := hpasses
    intro c t
    rw [hmembers.mem_iff, htasks]
    exact hw c t
  keeps e w w' b hproper hw hcond hfresh hinformed hperf := by
    cases perform_effect hperf with
    | idle => exact hw
    | scripted key fields hget =>
      have hstore : IndexAgrees (w.store fields) := indexed_store hw hproper hfresh
      exact hstore
    | stored fields => exact indexed_store hw hproper hfresh
    | removed contextId taskId extraKey b =>
      exact indexed_remove hw fun h hh => (hinformed h hh).1
    | dropped contextId => exact indexed_dropSet hw hcond

/-- Of an index that agrees with the hashes, `list_tasks` cannot tell the difference. -/
theorem IndexAgrees.listsAgree (hw : IndexAgrees w) : ListsAgree w := by
  intro contextId task hne
  unfold listTasks
  rw [if_pos hne, if_neg (not_not.mpr rfl), List.mem_filterMap, List.mem_filterMap]
  constructor
  · rintro ⟨t, hmem, hloaded⟩
    obtain ⟨h, hh, rfl⟩ := Option.map_eq_some_iff.mp hloaded
    obtain ⟨h', hh', hc⟩ := (hw contextId t).mp (mem_memberIds.mp hmem)
    cases hh.symm.trans hh'
    exact ⟨⟨t, AList.mem_keys.mp (AList.lookup_isSome.mp (by rw [hh]; rfl)), hloaded⟩, hc⟩
  · rintro ⟨⟨t, -, hloaded⟩, hc⟩
    obtain ⟨h, hh, rfl⟩ := Option.map_eq_some_iff.mp hloaded
    exact ⟨t, mem_memberIds.mpr ((hw contextId t).mpr ⟨h, hh, hc⟩), hloaded⟩

end

/-! ### Runs -/

/-- An empty server. -/
structure Vacant (w : Keyspace) : Prop where
  tasks : w.tasks = ∅
  members : w.members = []
  idempotency : w.idempotency = ∅

theorem Vacant.proper {w : Keyspace} (hw : Vacant w) : Proper w := by
  refine ⟨fun t h hh => ?_, fun key entry hentry => ?_⟩
  · rw [hw.tasks, AList.lookup_empty] at hh
    exact nomatch hh
  · rw [hw.idempotency, AList.lookup_empty] at hentry
    exact nomatch hentry

theorem Vacant.indexAgrees {w : Keyspace} (hw : Vacant w) : IndexAgrees w := by
  intro c t
  rw [hw.members, hw.tasks]
  refine iff_of_false (List.not_mem_nil) ?_
  rintro ⟨h, hh, -⟩
  rw [AList.lookup_empty] at hh
  exact nomatch hh

/-- The calls of the clients, before their first command. -/
def callPrograms {ι : Type} (calls : ι → StorageRequest) (i : ι) :
    Prog StorageCommand (Except Exc StorageAnswer × Unit) := (calls i).run ()

section

variable {ι : Type} [DecidableEq ι] {ttl : IdempotencyTtl} {w : Keyspace}
  {c : (ι → Prog StorageCommand (Except Exc StorageAnswer × Unit)) × Keyspace}
  {ms : List (PoolMove ι Keyspace)}

/-- **As long as `delete_context` finds the set empty when it drops it, the sets agree with the
hashes** in every state of every run, and so do the two ways to list the tasks of a context. -/
theorem index_kept (calls : ι → StorageRequest) (hw : Vacant w)
    (hrun : (keyspaceCrew ι ttl DropsEmpty).Run (callPrograms calls, w) ms c) :
    IndexAgrees c.2 ∧ ListsAgree c.2 := by
  have hmatch : Matches ttl DropsEmpty IndexAgrees fun _ _ => True :=
    ⟨fun _ _ _ _ _ _ _ _ _ _ _ => trivial⟩
  have hkeep : ClientsKeep ttl DropsEmpty IndexAgrees := clients_keep_index
  have hfits := keyspace_fits (ι := ι) hkeep (G := fun _ => True)
    (fun _ _ _ _ _ => trivial) fun _ _ _ _ _ _ _ _ _ _ _ _ => trivial
  obtain ⟨⟨-, hindexed⟩, -, -⟩ := Crew.Run.sound hfits hrun ⟨hw.proper, hw.indexAgrees⟩ fun i =>
    triple_run clients_keep_index hmatch (calls i) () w ⟨⟨hw.proper, hw.indexAgrees⟩, trivial⟩
  exact ⟨hindexed, hindexed.listsAgree⟩

end

/-! ### Two runs -/

/-- A message for the runs. -/
def greeting : Message :=
  { role := .user, parts := [], messageId := "m", taskId := "", contextId := "" }

/-- A client creates a task in the context that another one deletes. -/
def createAndDelete : Bool → StorageRequest
  | true => .createTask "c" greeting none
  | false => .deleteContext "c"

instance {β : Type} (e : StorageCommand β) (w : Keyspace) : Decidable (Unrepeated e w) := by
  unfold Unrepeated
  split <;> infer_instance

instance {β : Type} (e : StorageCommand β) (w : Keyspace) : Decidable (DropsEmpty e w) := by
  unfold DropsEmpty
  split <;> infer_instance

def bothAnswered
    (c : (Bool → Prog StorageCommand (Except Exc StorageAnswer × Unit)) × Keyspace) : Bool :=
  match c.1 true, c.1 false with
  | .ret _, .ret _ => true
  | _, _ => false

theorem answered_of_bothAnswered
    {c : (Bool → Prog StorageCommand (Except Exc StorageAnswer × Unit)) × Keyspace}
    (h : bothAnswered c = true) (i : Bool) : ∃ a, c.1 i = .ret a := by
  unfold bothAnswered at h
  split at h
  · rename_i htrue hfalse
    cases i with
    | true => exact ⟨_, htrue⟩
    | false => exact ⟨_, hfalse⟩
  · exact nomatch h

/-- The task is stored before the context is deleted, and the set is empty in the end. -/
theorem index_kept_created_first : ∃ ms c,
    (keyspaceCrew Bool {} DropsEmpty).Run (callPrograms createAndDelete, { uuid := "t" }) ms c ∧
      (∀ i, ∃ a, c.1 i = .ret a) ∧ IndexAgrees c.2 ∧ ListsAgree c.2 := by
  have hplay : ((keyspaceCrew Bool {} DropsEmpty).play
      (fun _ _ e w => decide (Unrepeated e w ∧ DropsEmpty e w))
      (List.replicate 4 (Crew.Cue.program true) ++ List.replicate 4 (Crew.Cue.program false))
      (callPrograms createAndDelete, { uuid := "t" })).any bothAnswered = true := by
    decide +kernel
  have hok : ∀ (i : Bool) {β : Type} (e : StorageCommand β) w,
      decide (Unrepeated e w ∧ DropsEmpty e w) = true →
      (keyspaceCrew Bool {} DropsEmpty).ok i e w := by
    intro i β e w h
    have hmet : Unrepeated e w ∧ DropsEmpty e w := of_decide_eq_true h
    exact hmet
  obtain ⟨ms, c, hrun, hended⟩ := Crew.exists_run_of_check hok (by simp) bothAnswered hplay
  exact ⟨ms, c, hrun, answered_of_bothAnswered hended,
    index_kept createAndDelete ⟨rfl, rfl, rfl⟩ hrun⟩

/-- Both calls have ended, and the new task is not in its set. -/
def leftOut
    (c : (Bool → Prog StorageCommand (Except Exc StorageAnswer × Unit)) × Keyspace) : Bool :=
  bothAnswered c && c.2.members.isEmpty && (c.2.listTasks "").any fun task => task.contextId = "c"

/-- Between the two commands of `delete_context` a task is created in the context. -/
theorem unindexed_task : ¬ ∀ (ι : Type) (_ : DecidableEq ι) (ttl : IdempotencyTtl)
    (calls : ι → StorageRequest) (w : Keyspace) (ms : List (PoolMove ι Keyspace))
    (c : (ι → Prog StorageCommand (Except Exc StorageAnswer × Unit)) × Keyspace), Vacant w →
    (keyspaceCrew ι ttl fun _ _ => True).Run (callPrograms calls, w) ms c →
    (∀ i, ∃ a, c.1 i = .ret a) → IndexAgrees c.2 ∧ ListsAgree c.2 := by
  intro hall
  have hplay : ((keyspaceCrew Bool {} fun _ _ => True).play
      (fun _ _ e w => decide (Unrepeated e w))
      (Crew.Cue.program false :: List.replicate 4 (Crew.Cue.program true) ++
        [Crew.Cue.program false])
      (callPrograms createAndDelete, { uuid := "t" })).any leftOut = true := by
    decide +kernel
  have hok : ∀ (i : Bool) {β : Type} (e : StorageCommand β) w,
      decide (Unrepeated e w) = true → (keyspaceCrew Bool {} fun _ _ => True).ok i e w :=
    fun _ _ _ _ h => ⟨of_decide_eq_true h, trivial⟩
  obtain ⟨ms, c, hrun, hleft⟩ := Crew.exists_run_of_check hok (by simp) leftOut hplay
  unfold leftOut at hleft
  rw [Bool.and_eq_true, Bool.and_eq_true] at hleft
  obtain ⟨⟨hended, hmembers⟩, htask⟩ := hleft
  obtain ⟨-, hlists⟩ := hall Bool inferInstance {} createAndDelete { uuid := "t" } ms c
    ⟨rfl, rfl, rfl⟩ hrun (answered_of_bothAnswered hended)
  obtain ⟨task, hmem, hcontext⟩ := List.any_eq_true.mp htask
  -- the list of the context is empty, and the task is in the list of all
  have hlisted := (hlists "c" task (by decide)).mpr ⟨hmem, of_decide_eq_true hcontext⟩
  unfold listTasks at hlisted
  rw [if_pos (by decide), List.mem_filterMap] at hlisted
  obtain ⟨t, ht, -⟩ := hlisted
  have hset := mem_memberIds.mp ht
  rw [List.isEmpty_iff.mp hmembers] at hset
  exact nomatch hset

end A2AKit
