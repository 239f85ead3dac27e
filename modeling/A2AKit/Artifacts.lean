/-
Applying artifact writes, by value and in place.

`applyWrites stored ws` is what a batch of `ArtifactWrite`s means: a left fold
that replaces or extends the first artifact with the same id and otherwise
appends.  `InMemoryStorage` computes exactly this, on deep copies.

The SQL and Redis backends run the same loop on the caller's own objects
(`applyArtifactInPlace`): `_coerce_v10_artifact` passes a `v10.Artifact` through
uncopied, so a write that is placed in the working list leaves the caller's
object there, and a later append of the batch extends that very object.

* `mergeInPlace_artifacts` — one merge computes the fold, aliasing or not;
* `resolve_mergeInPlace` — what the merge leaves in the caller's objects is
  `inflate`, which extends every placed object by the appends that follow it;
* `mergeInPlace_frame` — no other object is touched.
-/
import A2AKit.Task
import Mathlib.Logic.Function.Basic
import Mathlib.Data.List.Basic

namespace A2AKit

/-- `existing[idx].parts.extend(parts)` -/
def Artifact.extend (a : Artifact) (parts : List Part) : Artifact :=
  { a with parts := a.parts ++ parts }

@[simp] theorem Artifact.extend_artifactId (a : Artifact) (ps : List Part) :
    (a.extend ps).artifactId = a.artifactId := rfl

@[simp] theorem Artifact.extend_parts (a : Artifact) (ps : List Part) :
    (a.extend ps).parts = a.parts ++ ps := rfl

@[simp] theorem Artifact.extend_nil (a : Artifact) : a.extend [] = a := by
  simp [Artifact.extend]

theorem Artifact.extend_extend (a : Artifact) (ps qs : List Part) :
    (a.extend ps).extend qs = a.extend (ps ++ qs) := by
  simp [Artifact.extend]

theorem Artifact.extend_eq_self {a : Artifact} {ps : List Part} :
    a.extend ps = a ↔ ps = [] := by
  constructor
  · intro h
    have hparts : a.parts ++ ps = a.parts := congrArg Artifact.parts h
    simpa using hparts
  · rintro rfl
    exact a.extend_nil

/-! ### Writes by value -/

/-- `InMemoryStorage._apply_artifact`: upsert by artifact id, at the first match. -/
def applyArtifact : List Artifact → Artifact → Bool → List Artifact
  | [], artifact, _ => [artifact]
  | e :: es, artifact, append =>
    if e.artifactId = artifact.artifactId then
      (if append then e.extend artifact.parts else artifact) :: es
    else e :: applyArtifact es artifact append

/-- A batch of writes, in order. -/
def applyWrites (existing : List Artifact) (ws : List (ArtifactWrite Artifact)) : List Artifact :=
  ws.foldl (fun l w => applyArtifact l w.artifact w.append) existing

/-- The ids of an artifact list, in order. -/
def artifactIds (l : List Artifact) : List String := l.map Artifact.artifactId

@[simp] theorem applyWrites_nil (l : List Artifact) : applyWrites l [] = l := rfl

@[simp] theorem applyWrites_cons (l : List Artifact) (w : ArtifactWrite Artifact)
    (ws : List (ArtifactWrite Artifact)) :
    applyWrites l (w :: ws) = applyWrites (applyArtifact l w.artifact w.append) ws := rfl

theorem applyWrites_append (l : List Artifact) (ws vs : List (ArtifactWrite Artifact)) :
    applyWrites l (ws ++ vs) = applyWrites (applyWrites l ws) vs := List.foldl_append

theorem artifactIds_applyArtifact (l : List Artifact) (a : Artifact) (append : Bool) :
    artifactIds (applyArtifact l a append) =
      if a.artifactId ∈ artifactIds l then artifactIds l else artifactIds l ++ [a.artifactId] := by
  induction l with
  | nil => simp [applyArtifact, artifactIds]
  | cons e es ih =>
    by_cases he : e.artifactId = a.artifactId
    · have hhead : (if append then e.extend a.parts else a).artifactId = a.artifactId := by
        cases append <;> simp [he]
      simp [applyArtifact, artifactIds, he, hhead]
    · simp only [artifactIds] at ih
      simp only [applyArtifact, if_neg he, artifactIds, List.map_cons, ih, List.mem_cons,
        Ne.symm he, false_or]
      by_cases hmem : a.artifactId ∈ es.map Artifact.artifactId <;> simp [hmem]

theorem mem_artifactIds_applyArtifact {l : List Artifact} {a : Artifact} {append : Bool}
    {x : String} :
    x ∈ artifactIds (applyArtifact l a append) ↔ x = a.artifactId ∨ x ∈ artifactIds l := by
  rw [artifactIds_applyArtifact]
  split
  · rename_i hmem
    constructor
    · exact Or.inr
    · rintro (rfl | hx)
      · exact hmem
      · exact hx
  · simp [or_comm]

/-- Distinct artifact ids stay distinct. -/
theorem nodup_artifactIds_applyWrites {l : List Artifact} (ws : List (ArtifactWrite Artifact))
    (h : (artifactIds l).Nodup) : (artifactIds (applyWrites l ws)).Nodup := by
  induction ws generalizing l with
  | nil => exact h
  | cons w ws ih =>
    refine ih ?_
    rw [artifactIds_applyArtifact]
    split
    · exact h
    · rename_i hmem
      rw [List.nodup_append]
      refine ⟨h, by simp, fun x hx y hy => ?_⟩
      rw [List.mem_singleton] at hy
      rintro rfl
      exact hmem (hy ▸ hx)

/-! ### Writes in place -/

/-- A reference to one of the caller's artifact objects. -/
abbrev Ref := Nat

/-- The caller's artifact objects. -/
abbrev Heap := Ref → Artifact

/-- An element of the working list: an object deserialized for this attempt, or
one of the caller's. -/
inductive Slot
  | fresh (a : Artifact)
  | caller (r : Ref)
  deriving DecidableEq, Repr

def Slot.read (h : Heap) : Slot → Artifact
  | .fresh a => a
  | .caller r => h r

/-- The caller's objects in a working list. -/
def callers : List Slot → List Ref
  | [] => []
  | .fresh _ :: os => callers os
  | .caller r :: os => r :: callers os

/-- `_apply_artifact` of the SQL and Redis backends: the write's object `h r` is
placed or extends the object found, which may be the caller's. -/
def applyArtifactInPlace (h : Heap) (r : Ref) (append : Bool) : List Slot → Heap × List Slot
  | [] => (h, [.caller r])
  | o :: os =>
    if (o.read h).artifactId = (h r).artifactId then
      if append then
        match o with
        | .fresh a => (h, .fresh (a.extend (h r).parts) :: os)
        | .caller q => (Function.update h q ((h q).extend (h r).parts), .caller q :: os)
      else (h, .caller r :: os)
    else
      let out := applyArtifactInPlace h r append os
      (out.1, o :: out.2)

/-- The artifact loop of one attempt. -/
def applyWritesInPlace (h : Heap) (existing : List Slot) :
    List (ArtifactWrite Ref) → Heap × List Slot
  | [] => (h, existing)
  | w :: ws =>
    let out := applyArtifactInPlace h w.artifact w.append existing
    applyWritesInPlace out.1 out.2 ws

/-- One attempt's artifact merge: deserialize the stored list, run the loop,
serialize the working list. -/
def mergeInPlace (h : Heap) (stored : List Artifact) (ws : List (ArtifactWrite Ref)) :
    Heap × List Artifact :=
  let out := applyWritesInPlace h (stored.map .fresh) ws
  (out.1, out.2.map (Slot.read out.1))

/-- The writes as they currently read. -/
def resolve (h : Heap) (ws : List (ArtifactWrite Ref)) : List (ArtifactWrite Artifact) :=
  ws.map fun w => ⟨h w.artifact, w.append⟩

/-- The objects of a batch. -/
def refs (ws : List (ArtifactWrite Ref)) : List Ref := ws.map ArtifactWrite.artifact

@[simp] theorem resolve_nil (h : Heap) : resolve h [] = [] := rfl

@[simp] theorem resolve_cons (h : Heap) (w : ArtifactWrite Ref) (ws : List (ArtifactWrite Ref)) :
    resolve h (w :: ws) = ⟨h w.artifact, w.append⟩ :: resolve h ws := rfl

theorem resolve_append (h : Heap) (ws vs : List (ArtifactWrite Ref)) :
    resolve h (ws ++ vs) = resolve h ws ++ resolve h vs := List.map_append

@[simp] theorem refs_cons (w : ArtifactWrite Ref) (ws : List (ArtifactWrite Ref)) :
    refs (w :: ws) = w.artifact :: refs ws := rfl

theorem refs_append (ws vs : List (ArtifactWrite Ref)) : refs (ws ++ vs) = refs ws ++ refs vs :=
  List.map_append

theorem resolve_congr {h h' : Heap} {ws : List (ArtifactWrite Ref)}
    (heq : ∀ r ∈ refs ws, h' r = h r) : resolve h' ws = resolve h ws := by
  induction ws with
  | nil => rfl
  | cons w ws ih =>
    rw [resolve_cons, resolve_cons, heq w.artifact (by simp),
      ih fun r hr => heq r (by simp [hr])]

/-! ### What a merge leaves in the caller's objects -/

/-- The parts that the appends to `x` contribute before the next replacement of
`x`. -/
def followParts (x : String) : List (ArtifactWrite Artifact) → List Part
  | [] => []
  | w :: ws =>
    if w.artifact.artifactId = x then
      if w.append then w.artifact.parts ++ followParts x ws else []
    else followParts x ws

/-- A write is placed in the working list unless it appends to an id that is
already there. -/
def isPlaced (present : List String) (w : ArtifactWrite Artifact) : Bool :=
  !w.append || !present.contains w.artifact.artifactId

/-- The batch after one merge against a working list with the ids `present`:
every placed object has been extended by the appends that follow it. -/
def inflate (present : List String) :
    List (ArtifactWrite Artifact) → List (ArtifactWrite Artifact)
  | [] => []
  | w :: ws =>
    (if isPlaced present w then
      { w with artifact := w.artifact.extend (followParts w.artifact.artifactId ws) }
    else w) :: inflate (w.artifact.artifactId :: present) ws

/-- Only which ids are present matters. -/
theorem inflate_congr {ps qs : List String} (h : ∀ x, x ∈ ps ↔ x ∈ qs)
    (ws : List (ArtifactWrite Artifact)) : inflate ps ws = inflate qs ws := by
  induction ws generalizing ps qs with
  | nil => rfl
  | cons w ws ih =>
    have hplaced : isPlaced ps w = isPlaced qs w := by
      simp only [isPlaced, List.contains_eq_mem, h]
    rw [inflate, inflate, hplaced, ih fun x => ?_]
    simp [h]

/-- A caller's object in the working list is the first one with its id. -/
def PlacedFirst (h : Heap) (os : List Slot) : Prop :=
  os.Pairwise fun o o' => ∀ q, o' = .caller q → (o.read h).artifactId ≠ (h q).artifactId

theorem mem_callers {os : List Slot} {q : Ref} : q ∈ callers os ↔ .caller q ∈ os := by
  induction os with
  | nil => simp [callers]
  | cons o os ih => cases o <;> simp [callers, ih]

@[simp] theorem callers_map_fresh (l : List Artifact) : callers (l.map .fresh) = [] := by
  induction l with
  | nil => rfl
  | cons a l ih => simpa [callers] using ih

theorem placedFirst_map_fresh (h : Heap) (l : List Artifact) :
    PlacedFirst h (l.map .fresh) := by
  rw [PlacedFirst, List.pairwise_map]
  exact List.pairwise_of_forall fun _ _ q hq => nomatch hq

/-- One write of the loop, in full: the working list reads as the fold does, the
written object joins the callers exactly when it is placed, and only a caller's
object with the same id is extended, by an append. -/
structure StepSpec (h : Heap) (r : Ref) (append : Bool) (os : List Slot)
    (out : Heap × List Slot) : Prop where
  reads : out.2.map (Slot.read out.1) = applyArtifact (os.map (Slot.read h)) (h r) append
  first : PlacedFirst out.1 out.2
  objects : ∀ q, out.1 q =
    if q ∈ callers os ∧ (h q).artifactId = (h r).artifactId ∧ append = true then
      (h q).extend (h r).parts else h q
  self : r ∈ callers out.2 ↔
    ¬ (append = true ∧ (h r).artifactId ∈ os.map fun o => (o.read h).artifactId)
  others : ∀ q, q ≠ r → (q ∈ callers out.2 ↔
    q ∈ callers os ∧ ¬ ((h q).artifactId = (h r).artifactId ∧ append = false))

theorem artifactId_of_objects {h h' : Heap} {c : Ref → Prop} [DecidablePred c] {ps : List Part}
    (hobj : ∀ q, h' q = if c q then (h q).extend ps else h q) (q : Ref) :
    (h' q).artifactId = (h q).artifactId := by
  rw [hobj q]
  split <;> rfl

theorem Slot.read_artifactId {h h' : Heap} (hid : ∀ q, (h' q).artifactId = (h q).artifactId)
    (o : Slot) : (o.read h').artifactId = (o.read h).artifactId := by
  cases o with
  | fresh a => rfl
  | caller q => exact hid q

theorem PlacedFirst.of_ids {h h' : Heap} {os : List Slot}
    (hid : ∀ q, (h' q).artifactId = (h q).artifactId) (hos : PlacedFirst h os) :
    PlacedFirst h' os := by
  refine List.Pairwise.imp ?_ hos
  intro o o' hne q hq
  rw [Slot.read_artifactId hid, hid q]
  exact hne q hq

/-- Reading a list whose callers were not touched. -/
theorem map_read_congr {h h' : Heap} {os : List Slot} (heq : ∀ q ∈ callers os, h' q = h q) :
    os.map (Slot.read h') = os.map (Slot.read h) := by
  refine List.map_congr_left fun o ho => ?_
  cases o with
  | fresh a => rfl
  | caller q => exact heq q (mem_callers.mpr ho)

/-- The match is replaced by the written object. -/
theorem replace_spec {h : Heap} {r : Ref} {o : Slot} {os : List Slot}
    (hid : (o.read h).artifactId = (h r).artifactId) (hos : PlacedFirst h (o :: os))
    (hr : r ∉ callers (o :: os)) (hbehind : ∀ q ∈ callers os, (h q).artifactId ≠ (h r).artifactId) :
    StepSpec h r false (o :: os) (applyArtifactInPlace h r false (o :: os)) := by
  rw [show applyArtifactInPlace h r false (o :: os) = (h, .caller r :: os) by
    simp [applyArtifactInPlace, hid]]
  constructor
  · rw [List.map_cons, List.map_cons, applyArtifact, if_pos hid]
    rfl
  · refine List.Pairwise.cons ?_ (List.Pairwise.of_cons hos)
    rintro o' ho' q rfl heq
    exact hbehind q (mem_callers.mpr ho') heq.symm
  · simp
  · simp [callers]
  · intro q hq
    have hmem : q ∈ callers (o :: os) ∧ (h q).artifactId ≠ (h r).artifactId ↔ q ∈ callers os := by
      constructor
      · rintro ⟨hq, hne⟩
        rcases List.mem_cons.mp (mem_callers.mp hq) with rfl | hq
        · exact absurd hid hne
        · exact mem_callers.mpr hq
      · intro hq
        exact ⟨mem_callers.mpr (List.mem_cons_of_mem _ (mem_callers.mp hq)), hbehind q hq⟩
    simpa [callers, hq] using hmem.symm

/-- An append extends an object of this attempt. -/
theorem extend_fresh_spec {h : Heap} {r : Ref} {a : Artifact} {os : List Slot}
    (hid : ((Slot.fresh a).read h).artifactId = (h r).artifactId)
    (hos : PlacedFirst h (.fresh a :: os)) (hr : r ∉ callers (.fresh a :: os))
    (hbehind : ∀ q ∈ callers os, (h q).artifactId ≠ (h r).artifactId) :
    StepSpec h r true (.fresh a :: os) (applyArtifactInPlace h r true (.fresh a :: os)) := by
  have hid' : a.artifactId = (h r).artifactId := hid
  rw [show applyArtifactInPlace h r true (.fresh a :: os) =
      (h, .fresh (a.extend (h r).parts) :: os) by simp [applyArtifactInPlace, hid]]
  constructor
  · simp [applyArtifact, hid', Slot.read]
  · refine List.Pairwise.cons ?_ (List.Pairwise.of_cons hos)
    rintro o' ho' q rfl heq
    exact hbehind q (mem_callers.mpr ho') (heq.symm.trans hid')
  · intro q
    rw [if_neg]
    rintro ⟨hq, hqid, -⟩
    exact hbehind q hq hqid
  · simpa [callers, Slot.read, hid'] using hr
  · intro q _
    simp [callers]

/-- An append extends an object of the caller. -/
theorem extend_caller_spec {h : Heap} {r p : Ref} {os : List Slot}
    (hid : ((Slot.caller p).read h).artifactId = (h r).artifactId)
    (hos : PlacedFirst h (.caller p :: os)) (hr : r ∉ callers (.caller p :: os))
    (hbehind : ∀ q ∈ callers os, (h q).artifactId ≠ (h r).artifactId) :
    StepSpec h r true (.caller p :: os) (applyArtifactInPlace h r true (.caller p :: os)) := by
  have hid' : (h p).artifactId = (h r).artifactId := hid
  rw [show applyArtifactInPlace h r true (.caller p :: os) =
      (Function.update h p ((h p).extend (h r).parts), .caller p :: os) by
    simp [applyArtifactInPlace, hid]]
  -- `p` is not behind itself, so the rest of the list still reads as before
  have hp : p ∉ callers os := fun hmem => hbehind p hmem hid'
  have hobj : ∀ q, Function.update h p ((h p).extend (h r).parts) q =
      if q ∈ callers (.caller p :: os) ∧ (h q).artifactId = (h r).artifactId ∧ true = true then
        (h q).extend (h r).parts else h q := by
    intro q
    by_cases hq : q = p
    · subst hq
      simp [callers, hid']
    · rw [Function.update_of_ne hq, if_neg]
      rintro ⟨hmem, hqid, -⟩
      rcases List.mem_cons.mp hmem with rfl | hmem
      · exact hq rfl
      · exact hbehind q hmem hqid
  constructor
  · have hrest : os.map (Slot.read (Function.update h p ((h p).extend (h r).parts))) =
        os.map (Slot.read h) := by
      refine map_read_congr fun q hq => Function.update_of_ne ?_ _ _
      rintro rfl
      exact hp hq
    rw [List.map_cons, hrest]
    simp [applyArtifact, Slot.read, hid']
  · exact hos.of_ids (artifactId_of_objects hobj)
  · exact hobj
  · have hmem : (h r).artifactId ∈ (Slot.caller p :: os).map fun o => (o.read h).artifactId := by
      simp [Slot.read, hid']
    constructor
    · intro hmem'
      exact absurd hmem' hr
    · intro hnot
      exact absurd ⟨rfl, hmem⟩ hnot
  · intro q _
    simp

/-- No match at the head: the step happens in the tail. -/
theorem StepSpec.cons {h : Heap} {r : Ref} {append : Bool} {o : Slot} {os : List Slot}
    {out : Heap × List Slot} (hspec : StepSpec h r append os out)
    (hos : PlacedFirst h (o :: os)) (hid : (o.read h).artifactId ≠ (h r).artifactId)
    (hr : r ∉ callers (o :: os)) : StepSpec h r append (o :: os) (out.1, o :: out.2) := by
  have hids : ∀ q, (out.1 q).artifactId = (h q).artifactId := artifactId_of_objects hspec.objects
  have hbehind : ∀ q ∈ callers os, (o.read h).artifactId ≠ (h q).artifactId := fun q hq =>
    List.rel_of_pairwise_cons hos (mem_callers.mp hq) q rfl
  -- the head has another id, so the step in the tail does not change its object
  have hread : o.read out.1 = o.read h := by
    cases o with
    | fresh a => rfl
    | caller p =>
      show out.1 p = h p
      rw [hspec.objects p, if_neg]
      rintro ⟨-, hpid, -⟩
      exact hid hpid
  have hhead : ∀ q, q ∈ callers (o :: os) ↔ o = .caller q ∨ q ∈ callers os := by
    intro q
    rw [mem_callers, List.mem_cons, mem_callers, eq_comm]
  have hhead' : ∀ q, q ∈ callers (o :: out.2) ↔ o = .caller q ∨ q ∈ callers out.2 := by
    intro q
    rw [mem_callers, List.mem_cons, mem_callers, eq_comm]
  constructor
  · rw [List.map_cons, List.map_cons, hread, applyArtifact, if_neg hid, ← hspec.reads]
  · refine List.Pairwise.cons ?_ hspec.first
    rintro o' ho' q rfl
    rw [hread, hids q]
    have hmem := mem_callers.mpr ho'
    by_cases hq : q = r
    · rw [hq]
      exact hid
    · exact hbehind q ((hspec.others q hq).mp hmem).1
  · intro q
    rw [hspec.objects q]
    congr 1
    rw [hhead, eq_iff_iff]
    constructor
    · rintro ⟨hq, hrest⟩
      exact ⟨Or.inr hq, hrest⟩
    · rintro ⟨rfl | hq, hrest⟩
      · exact absurd hrest.1 hid
      · exact ⟨hq, hrest⟩
  · have hor : o ≠ .caller r := fun heq => hr ((hhead r).mpr (Or.inl heq))
    rw [hhead', hspec.self]
    simp [hor, Ne.symm hid]
  · intro q hq
    rw [hhead', hhead, hspec.others q hq]
    constructor
    · rintro (rfl | ⟨hmem, hrest⟩)
      · exact ⟨Or.inl rfl, fun hc => hid hc.1⟩
      · exact ⟨Or.inr hmem, hrest⟩
    · rintro ⟨rfl | hmem, hrest⟩
      · exact Or.inl rfl
      · exact Or.inr ⟨hmem, hrest⟩

theorem applyArtifactInPlace_spec {h : Heap} {r : Ref} {append : Bool} {os : List Slot}
    (hos : PlacedFirst h os) (hr : r ∉ callers os) :
    StepSpec h r append os (applyArtifactInPlace h r append os) := by
  induction os with
  | nil =>
    constructor
    · rfl
    · exact List.pairwise_singleton _ _
    · intro q
      simp [applyArtifactInPlace, callers]
    · simp [applyArtifactInPlace, callers]
    · intro q hq
      simp [applyArtifactInPlace, callers, hq]
  | cons o os ih =>
    have htail : PlacedFirst h os := List.Pairwise.of_cons hos
    have hrtail : r ∉ callers os := fun hmem => hr (mem_callers.mpr
      (List.mem_cons_of_mem _ (mem_callers.mp hmem)))
    -- no caller's object behind the head has the head's id
    have hbehind : ∀ q ∈ callers os, (o.read h).artifactId ≠ (h q).artifactId := fun q hq =>
      List.rel_of_pairwise_cons hos (mem_callers.mp hq) q rfl
    by_cases hid : (o.read h).artifactId = (h r).artifactId
    · have hbehind' : ∀ q ∈ callers os, (h q).artifactId ≠ (h r).artifactId := fun q hq heq =>
        hbehind q hq (hid.trans heq.symm)
      cases append with
      | false => exact replace_spec hid hos hr hbehind'
      | true =>
        cases o with
        | fresh a => exact extend_fresh_spec hid hos hr hbehind'
        | caller p => exact extend_caller_spec hid hos hr hbehind'
    · have hspec := ih htail hrtail
      simp only [applyArtifactInPlace, if_neg hid]
      exact hspec.cons hos hid hr

/-- A whole batch of the loop. -/
structure LoopSpec (h : Heap) (os : List Slot) (ws : List (ArtifactWrite Ref))
    (out : Heap × List Slot) : Prop where
  reads : out.2.map (Slot.read out.1) = applyWrites (os.map (Slot.read h)) (resolve h ws)
  batch : resolve out.1 ws = inflate (os.map fun o => (o.read h).artifactId) (resolve h ws)
  placed : ∀ q ∈ callers os,
    out.1 q = (h q).extend (followParts (h q).artifactId (resolve h ws))
  frame : ∀ q, q ∉ callers os → q ∉ refs ws → out.1 q = h q

/-- A write leaves the objects of the writes behind it alone. -/
theorem StepSpec.resolve_eq {h : Heap} {r : Ref} {append : Bool} {os : List Slot}
    {out : Heap × List Slot} (hspec : StepSpec h r append os out) {ws : List (ArtifactWrite Ref)}
    (hdisj : ∀ q ∈ callers os, q ∉ refs ws) : resolve out.1 ws = resolve h ws := by
  refine resolve_congr fun q hq => ?_
  rw [hspec.objects q, if_neg]
  rintro ⟨hmem, -⟩
  exact hdisj q hmem hq

theorem StepSpec.mem_ids {h : Heap} {r : Ref} {append : Bool} {os : List Slot}
    {out : Heap × List Slot} (hspec : StepSpec h r append os out) (x : String) :
    x ∈ (out.2.map fun o => (o.read out.1).artifactId) ↔
      x ∈ (h r).artifactId :: os.map fun o => (o.read h).artifactId := by
  have hmap : ∀ (g : Heap) (l : List Slot),
      (l.map fun o => (o.read g).artifactId) = artifactIds (l.map (Slot.read g)) := by
    intro g l
    simp [artifactIds, Function.comp_def]
  rw [hmap, hspec.reads, mem_artifactIds_applyArtifact, List.mem_cons, hmap]

theorem applyWritesInPlace_spec {h : Heap} {os : List Slot} {ws : List (ArtifactWrite Ref)}
    (hos : PlacedFirst h os) (hdisj : ∀ q ∈ callers os, q ∉ refs ws) (hnd : (refs ws).Nodup) :
    LoopSpec h os ws (applyWritesInPlace h os ws) := by
  induction ws generalizing h os with
  | nil =>
    constructor
    · rfl
    · rfl
    · intro q _
      simp [applyWritesInPlace, followParts]
    · intro q _ _
      rfl
  | cons w ws ih =>
    rw [refs_cons, List.nodup_cons] at hnd
    have hw : w.artifact ∉ callers os := fun hmem => hdisj _ hmem (by simp)
    have hstep : StepSpec h w.artifact w.append os _ := applyArtifactInPlace_spec hos hw
    rw [applyWritesInPlace]
    set mid := applyArtifactInPlace h w.artifact w.append os with hmid
    have hdisj' : ∀ q ∈ callers os, q ∉ refs ws := fun q hq hmem =>
      hdisj q hq (by simp [hmem])
    have hres : resolve mid.1 ws = resolve h ws := hstep.resolve_eq hdisj'
    have hids := artifactId_of_objects hstep.objects
    have hloop := ih hstep.first (fun q hq => by
      by_cases hqw : q = w.artifact
      · rw [hqw]
        exact hnd.1
      · exact hdisj' q ((hstep.others q hqw).mp hq).1) hnd.2
    have hself : mid.1 w.artifact = h w.artifact := by
      rw [hstep.objects, if_neg]
      rintro ⟨hmem, -⟩
      exact hw hmem
    constructor
    · rw [hloop.reads, hres, hstep.reads]
      rfl
    · rw [resolve_cons, resolve_cons, inflate, hloop.batch, hres]
      congr 1
      · -- the head: extended by what follows exactly when it was placed
        by_cases hplaced : isPlaced (os.map fun o => (o.read h).artifactId)
            ⟨h w.artifact, w.append⟩ = true
        · have hmem : w.artifact ∈ callers mid.2 := by
            rw [hstep.self]
            rintro ⟨happ, hin⟩
            simp [isPlaced, happ] at hplaced
            obtain ⟨o, ho, hoid⟩ := List.mem_map.mp hin
            exact hplaced o ho hoid
          rw [if_pos hplaced, hloop.placed _ hmem, hself, hres]
        · have hmem : w.artifact ∉ callers mid.2 := by
            rw [hstep.self, not_not]
            simp [isPlaced] at hplaced
            exact ⟨hplaced.1, List.mem_map.mpr hplaced.2⟩
          rw [if_neg hplaced, hloop.frame _ hmem hnd.1, hself]
      · exact inflate_congr hstep.mem_ids _
    · intro q hq
      have hqw : q ≠ w.artifact := fun heq => hw (heq ▸ hq)
      rw [resolve_cons, followParts]
      by_cases hqid : (h w.artifact).artifactId = (h q).artifactId
      · cases happ : w.append with
        | true =>
          have hmem : q ∈ callers mid.2 := by
            rw [hstep.others q hqw]
            exact ⟨hq, by simp [happ]⟩
          have hmid' : mid.1 q = (h q).extend (h w.artifact).parts := by
            rw [hstep.objects q, if_pos ⟨hq, hqid.symm, happ⟩]
          rw [hloop.placed q hmem, hids q, hres, hmid', Artifact.extend_extend]
          simp [hqid]
        | false =>
          have hmem : q ∉ callers mid.2 := by
            rw [hstep.others q hqw]
            rintro ⟨-, hne⟩
            exact hne ⟨hqid.symm, happ⟩
          rw [hloop.frame q hmem (hdisj' q hq), hstep.objects q]
          simp [happ, hqid]
      · have hmem : q ∈ callers mid.2 := by
          rw [hstep.others q hqw]
          exact ⟨hq, fun hc => hqid hc.1.symm⟩
        have hmid' : mid.1 q = h q := by
          rw [hstep.objects q, if_neg]
          rintro ⟨-, heq, -⟩
          exact hqid heq.symm
        rw [hloop.placed q hmem, hids q, hres, hmid', if_neg hqid]
    · intro q hq hqrefs
      rw [refs_cons, List.mem_cons, not_or] at hqrefs
      have hmem : q ∉ callers mid.2 := by
        rw [hstep.others q hqrefs.1]
        rintro ⟨hmem, -⟩
        exact hq hmem
      rw [hloop.frame q hmem hqrefs.2, hstep.objects q, if_neg]
      rintro ⟨hmem', -⟩
      exact hq hmem'

/-! ### One merge -/

section

variable {h : Heap} {ws : List (ArtifactWrite Ref)} (stored : List Artifact)

theorem mergeInPlace_spec (hnd : (refs ws).Nodup) :
    LoopSpec h (stored.map .fresh) ws (applyWritesInPlace h (stored.map .fresh) ws) :=
  applyWritesInPlace_spec (placedFirst_map_fresh h stored) (by simp) hnd

theorem map_read_fresh (h : Heap) : (stored.map .fresh).map (Slot.read h) = stored := by
  simp [Function.comp_def, Slot.read]

/-- The artifacts one merge computes are the fold of the writes as they read
when it starts. -/
theorem mergeInPlace_artifacts (hnd : (refs ws).Nodup) :
    (mergeInPlace h stored ws).2 = applyWrites stored (resolve h ws) := by
  have hspec := (mergeInPlace_spec (h := h) stored hnd).reads
  rw [map_read_fresh] at hspec
  exact hspec

/-- The merge leaves the batch inflated. -/
theorem resolve_mergeInPlace (hnd : (refs ws).Nodup) :
    resolve (mergeInPlace h stored ws).1 ws = inflate (artifactIds stored) (resolve h ws) := by
  have hspec := (mergeInPlace_spec (h := h) stored hnd).batch
  rw [List.map_map] at hspec
  exact hspec

/-- The merge touches no object outside the batch. -/
theorem mergeInPlace_frame (hnd : (refs ws).Nodup) {q : Ref} (hq : q ∉ refs ws) :
    (mergeInPlace h stored ws).1 q = h q :=
  (mergeInPlace_spec (h := h) stored hnd).frame q (by simp) hq

end

end A2AKit
