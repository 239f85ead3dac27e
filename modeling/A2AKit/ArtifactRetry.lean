/-
Merging the same batch more than once.

An attempt that merges a batch and then loses its version race leaves the batch
inflated (`resolve_mergeInPlace`), and the next attempt merges the inflated
objects.  `inflateAll lost ws` is the batch after attempts that read the id lists
`lost` have been lost.

* `applyWrites_inflateAll_iff` — the last attempt still computes the fold of the
  writes as they were built iff every lost attempt was `retrySafe`;
* `inflate_eq_self_iff` — a merge leaves the objects themselves alone iff it is
  `aliasFree`.

The measure behind the first is the number of parts of the first artifact with a
given id: inflating can only raise it, and it does so strictly as soon as a write
that no later replacement discards is extended.
-/
import A2AKit.Artifacts

namespace A2AKit

/-- Some write of the batch replaces the artifact `x`. -/
def isReplacedIn (x : String) (ws : List (ArtifactWrite Artifact)) : Bool :=
  ws.any fun w => !w.append && w.artifact.artifactId == x

/-- A merge against the ids `present` can be lost and repeated: an object it
places and extends is one that a later replacement of the batch discards. -/
def retrySafe (present : List String) : List (ArtifactWrite Artifact) → Bool
  | [] => true
  | w :: ws =>
    (!isPlaced present w || isReplacedIn w.artifact.artifactId ws ||
      (followParts w.artifact.artifactId ws).isEmpty) &&
    retrySafe (w.artifact.artifactId :: present) ws

/-- A merge against the ids `present` extends none of the objects it places. -/
def aliasFree (present : List String) : List (ArtifactWrite Artifact) → Bool
  | [] => true
  | w :: ws =>
    (!isPlaced present w || (followParts w.artifact.artifactId ws).isEmpty) &&
    aliasFree (w.artifact.artifactId :: present) ws

theorem inflate_eq_self_iff (present : List String) (ws : List (ArtifactWrite Artifact)) :
    inflate present ws = ws ↔ aliasFree present ws = true := by
  induction ws generalizing present with
  | nil => simp [inflate, aliasFree]
  | cons w ws ih =>
    obtain ⟨a, append⟩ := w
    rw [inflate, aliasFree, List.cons.injEq, ih, Bool.and_eq_true]
    refine and_congr_left fun _ => ?_
    by_cases hplaced : isPlaced present ⟨a, append⟩ = true
    · simp [hplaced, Artifact.extend_eq_self]
    · simp [hplaced]

theorem retrySafe_of_aliasFree {present : List String} {ws : List (ArtifactWrite Artifact)}
    (h : aliasFree present ws = true) : retrySafe present ws = true := by
  induction ws generalizing present with
  | nil => rfl
  | cons w ws ih =>
    rw [aliasFree, Bool.and_eq_true] at h
    rw [retrySafe, Bool.and_eq_true]
    refine ⟨?_, ih h.2⟩
    have h1 := h.1
    simp only [Bool.or_eq_true] at h1 ⊢
    rcases h1 with h1 | h1
    · exact Or.inl (Or.inl h1)
    · exact Or.inr h1

/-! ### Extended batches -/

/-- The same writes, each with an artifact that may have grown. -/
def Extended : List (ArtifactWrite Artifact) → List (ArtifactWrite Artifact) → Prop :=
  List.Forall₂ fun w w' => w'.append = w.append ∧ ∃ ps, w'.artifact = w.artifact.extend ps

/-- The writes that no later write of the batch discards are the same. -/
def LiveEq : List (ArtifactWrite Artifact) → List (ArtifactWrite Artifact) → Prop
  | w :: ws, w' :: ws' =>
    (isReplacedIn w.artifact.artifactId ws = false → w' = w) ∧ LiveEq ws ws'
  | _, _ => True

theorem Extended.refl (ws : List (ArtifactWrite Artifact)) : Extended ws ws :=
  List.forall₂_same.mpr fun w _ => ⟨rfl, [], by simp⟩

theorem Extended.trans {ws ws' ws'' : List (ArtifactWrite Artifact)} (h : Extended ws ws')
    (h' : Extended ws' ws'') : Extended ws ws'' := by
  induction h generalizing ws'' with
  | nil => exact h'
  | cons hw _ ih =>
    obtain _ | ⟨hw', htail'⟩ := h'
    obtain ⟨happ, ps, hps⟩ := hw
    obtain ⟨happ', qs, hqs⟩ := hw'
    refine List.Forall₂.cons ⟨happ'.trans happ, ps ++ qs, ?_⟩ (ih htail')
    rw [hqs, hps, Artifact.extend_extend]

theorem LiveEq.refl (ws : List (ArtifactWrite Artifact)) : LiveEq ws ws := by
  induction ws with
  | nil => trivial
  | cons w ws ih => exact ⟨fun _ => rfl, ih⟩

theorem Extended.isReplacedIn_eq {ws ws' : List (ArtifactWrite Artifact)} (h : Extended ws ws')
    (x : String) : isReplacedIn x ws' = isReplacedIn x ws := by
  induction h with
  | nil => rfl
  | cons hw _ ih =>
    obtain ⟨happ, ps, hps⟩ := hw
    simp only [isReplacedIn, List.any_cons] at ih ⊢
    rw [ih, happ, hps, Artifact.extend_artifactId]

theorem Artifact.extend_cancel {a : Artifact} {ps qs : List Part}
    (h : (a.extend ps).extend qs = a) : ps = [] ∧ qs = [] := by
  rw [Artifact.extend_extend, Artifact.extend_eq_self] at h
  exact List.append_eq_nil_iff.mp h

/-- Along growing batches, the live writes agree at the end iff they agreed at
every step. -/
theorem liveEq_trans_iff {ws ws' ws'' : List (ArtifactWrite Artifact)} (h : Extended ws ws')
    (h' : Extended ws' ws'') : LiveEq ws ws'' ↔ LiveEq ws ws' ∧ LiveEq ws' ws'' := by
  induction h generalizing ws'' with
  | nil =>
    cases h'
    simp [LiveEq]
  | @cons w w' ws ws' hw htail ih =>
    obtain _ | ⟨hw', htail'⟩ := h'
    rename_i w'' ws''
    obtain ⟨happ, ps, hps⟩ := hw
    obtain ⟨happ', qs, hqs⟩ := hw'
    have hrep : isReplacedIn w'.artifact.artifactId ws' =
        isReplacedIn w.artifact.artifactId ws := by
      rw [Extended.isReplacedIn_eq htail, hps, Artifact.extend_artifactId]
    have hsplit : w'' = w ↔ w' = w ∧ w'' = w' := by
      constructor
      · rintro rfl
        rw [hps] at hqs
        obtain ⟨rfl, rfl⟩ := Artifact.extend_cancel hqs.symm
        have hw' : w' = w'' := by
          obtain ⟨a', b'⟩ := w'
          obtain ⟨a, b⟩ := w''
          simp_all
        exact ⟨hw', hw'.symm⟩
      · rintro ⟨rfl, rfl⟩
        rfl
    simp only [LiveEq, hrep, ih htail']
    constructor
    · rintro ⟨hhead, h1, h2⟩
      exact ⟨⟨fun hr => (hsplit.mp (hhead hr)).1, h1⟩, fun hr => (hsplit.mp (hhead hr)).2, h2⟩
    · rintro ⟨⟨hhead, h1⟩, hhead', h2⟩
      exact ⟨fun hr => hsplit.mpr ⟨hhead hr, hhead' hr⟩, h1, h2⟩

/-! ### Dead writes do not matter -/

/-- Lists that agree up to the first artifact of each id in `R`. -/
def AgreeUpTo (R : String → Prop) : List Artifact → List Artifact → Prop
  | [], [] => True
  | a :: l, a' :: l' =>
    a'.artifactId = a.artifactId ∧ (¬ R a.artifactId → a' = a) ∧
      AgreeUpTo (fun x => R x ∧ x ≠ a.artifactId) l l'
  | _, _ => False

theorem AgreeUpTo.mono {R R' : String → Prop} (hR : ∀ x, R x → R' x) {l l' : List Artifact}
    (h : AgreeUpTo R l l') : AgreeUpTo R' l l' := by
  induction l generalizing l' R R' with
  | nil =>
    cases l' with
    | nil => trivial
    | cons _ _ => exact h
  | cons a l ih =>
    cases l' with
    | nil => exact h
    | cons a' l' =>
      obtain ⟨hid, heq, htail⟩ := h
      exact ⟨hid, fun hn => heq fun hr => hn (hR _ hr),
        ih (fun x hx => ⟨hR x hx.1, hx.2⟩) htail⟩

theorem AgreeUpTo.refl (R : String → Prop) (l : List Artifact) : AgreeUpTo R l l := by
  induction l generalizing R with
  | nil => trivial
  | cons a l ih => exact ⟨rfl, fun _ => rfl, ih _⟩

theorem AgreeUpTo.eq {R : String → Prop} (hR : ∀ x, ¬ R x) {l l' : List Artifact}
    (h : AgreeUpTo R l l') : l' = l := by
  induction l generalizing l' R with
  | nil =>
    cases l' with
    | nil => rfl
    | cons _ _ => exact h.elim
  | cons a l ih =>
    cases l' with
    | nil => exact h.elim
    | cons a' l' =>
      obtain ⟨-, heq, htail⟩ := h
      rw [heq (hR _), ih (fun x hx => hR x hx.1) htail]

/-- One write, on lists that agree up to what it or a later write replaces. -/
theorem AgreeUpTo.applyArtifact {R : String → Prop} {l l' : List Artifact} {a a' : Artifact}
    {append : Bool}
    (h : AgreeUpTo (fun x => (append = false ∧ a.artifactId = x) ∨ R x) l l')
    (hid : a'.artifactId = a.artifactId) (heq : ¬ R a.artifactId → a' = a) :
    AgreeUpTo R (applyArtifact l a append) (applyArtifact l' a' append) := by
  induction l generalizing l' R with
  | nil =>
    cases l' with
    | nil => exact ⟨hid, heq, trivial⟩
    | cons _ _ => exact h.elim
  | cons e l ih =>
    cases l' with
    | nil => exact h.elim
    | cons e' l' =>
      obtain ⟨heid, hee, htail⟩ := h
      by_cases hmatch : e.artifactId = a.artifactId
      · have hmatch' : e'.artifactId = a'.artifactId := by rw [heid, hmatch, hid]
        simp only [A2AKit.applyArtifact, if_pos hmatch, if_pos hmatch']
        have hrest : AgreeUpTo (fun x => R x ∧ x ≠ a.artifactId) l l' := by
          refine htail.mono fun x hx => ?_
          obtain ⟨⟨-, rfl⟩ | hx, hne⟩ := hx
          · exact absurd hmatch.symm hne
          · exact ⟨hx, fun heq => hne (heq.trans hmatch.symm)⟩
        cases append with
        | false => exact ⟨hid, heq, by simpa using hrest⟩
        | true =>
          refine ⟨by simpa using heid, fun hn => ?_, by simpa [hmatch] using hrest⟩
          have hn' : ¬ R a.artifactId := by simpa [hmatch] using hn
          rw [heq hn', hee (by simpa [hmatch] using hn')]
      · have hmatch' : e'.artifactId ≠ a'.artifactId := by rw [heid, hid]; exact hmatch
        simp only [A2AKit.applyArtifact, if_neg hmatch, if_neg hmatch']
        refine ⟨heid, fun hn => hee ?_, ih ?_ fun hn => heq fun hr => ?_⟩
        · rintro (⟨-, h⟩ | h)
          · exact hmatch h.symm
          · exact hn h
        · refine htail.mono fun x hx => ?_
          obtain ⟨hx | hx, hne⟩ := hx
          · exact Or.inl hx
          · exact Or.inr ⟨hx, hne⟩
        · exact hn ⟨hr, fun h => hmatch h.symm⟩

theorem isReplacedIn_cons (x : String) (w : ArtifactWrite Artifact)
    (ws : List (ArtifactWrite Artifact)) :
    isReplacedIn x (w :: ws) = true ↔
      (w.append = false ∧ w.artifact.artifactId = x) ∨ isReplacedIn x ws = true := by
  simp [isReplacedIn]

theorem applyWrites_eq_of_liveEq {ws ws' : List (ArtifactWrite Artifact)} (h : Extended ws ws')
    (hlive : LiveEq ws ws') {l l' : List Artifact}
    (hl : AgreeUpTo (fun x => isReplacedIn x ws = true) l l') :
    applyWrites l' ws' = applyWrites l ws := by
  induction h generalizing l l' with
  | nil =>
    rw [applyWrites_nil, applyWrites_nil]
    exact hl.eq fun x hx => by simp [isReplacedIn] at hx
  | @cons w w' ws ws' hw _ ih =>
    obtain ⟨happ, ps, hps⟩ := hw
    obtain ⟨hhead, htail⟩ := hlive
    rw [applyWrites_cons, applyWrites_cons, happ]
    refine ih htail (AgreeUpTo.applyArtifact ?_ (by rw [hps, Artifact.extend_artifactId])
      fun hn => ?_)
    · exact hl.mono fun x hx => (isReplacedIn_cons x w ws).mp hx
    · rw [hhead (by simpa using hn)]

/-! ### Live writes do -/

/-- The number of parts of the first artifact with id `x`. -/
def partCount (x : String) : List Artifact → Nat
  | [] => 0
  | a :: l => if a.artifactId = x then a.parts.length else partCount x l

/-- The number of parts of `x` after the batch, from `n` before it. -/
def partCountFrom (x : String) (n : Nat) : List (ArtifactWrite Artifact) → Nat
  | [] => n
  | w :: ws =>
    if w.artifact.artifactId = x then
      partCountFrom x (if w.append then n + w.artifact.parts.length else w.artifact.parts.length) ws
    else partCountFrom x n ws

theorem partCount_applyArtifact (x : String) (l : List Artifact) (a : Artifact) (append : Bool) :
    partCount x (applyArtifact l a append) =
      if a.artifactId = x then
        (if append then partCount x l + a.parts.length else a.parts.length)
      else partCount x l := by
  induction l with
  | nil => by_cases hx : a.artifactId = x <;> simp [applyArtifact, partCount, hx]
  | cons e l ih =>
    by_cases hmatch : e.artifactId = a.artifactId
    · by_cases hx : a.artifactId = x <;> cases append <;>
        simp [applyArtifact, partCount, hmatch, hx]
    · by_cases hx : a.artifactId = x
      · have hex : e.artifactId ≠ x := fun h => hmatch (h.trans hx.symm)
        simp only [applyArtifact, if_neg hmatch, partCount, if_neg hex, ih]
      · by_cases hex : e.artifactId = x
        · simp only [applyArtifact, if_neg hmatch, partCount, if_pos hex, if_neg hx]
        · simp only [applyArtifact, if_neg hmatch, partCount, if_neg hex, ih]

theorem partCount_applyWrites (x : String) (l : List Artifact)
    (ws : List (ArtifactWrite Artifact)) :
    partCount x (applyWrites l ws) = partCountFrom x (partCount x l) ws := by
  induction ws generalizing l with
  | nil => rfl
  | cons w ws ih =>
    rw [applyWrites_cons, ih, partCount_applyArtifact, partCountFrom]
    split <;> rfl

theorem partCountFrom_lt {ws ws' : List (ArtifactWrite Artifact)} (h : Extended ws ws')
    {x : String} (hx : isReplacedIn x ws = false) {n n' : Nat} (hn : n < n') :
    partCountFrom x n ws < partCountFrom x n' ws' := by
  induction h generalizing n n' with
  | nil => exact hn
  | @cons w w' ws ws' hw _ ih =>
    obtain ⟨happ, ps, hps⟩ := hw
    have hcons := isReplacedIn_cons x w ws
    rw [hx] at hcons
    have hx' : isReplacedIn x ws = false := by
      by_contra hne
      exact absurd (hcons.mpr (Or.inr (by simpa using hne))) (by simp)
    rw [partCountFrom, partCountFrom, happ, hps, Artifact.extend_artifactId, Artifact.extend_parts,
      List.length_append]
    split
    · rename_i hid
      have happend : w.append = true := by
        by_contra hne
        exact absurd (hcons.mpr (Or.inl ⟨by simpa using hne, hid⟩)) (by simp)
      rw [if_pos happend, if_pos happend]
      exact ih hx' (by omega)
    · exact ih hx' hn

/-- A live write that has grown shows, whatever the batch is applied to. -/
theorem exists_partCountFrom_lt {ws ws' : List (ArtifactWrite Artifact)} (h : Extended ws ws')
    (hlive : ¬ LiveEq ws ws') :
    ∃ x, ∀ n n', n ≤ n' → partCountFrom x n ws < partCountFrom x n' ws' := by
  induction h with
  | nil => exact absurd trivial hlive
  | @cons w w' ws ws' hw htail ih =>
    obtain ⟨happ, ps, hps⟩ := hw
    by_cases hrest : LiveEq ws ws'
    · -- the head is live and has grown
      have hhead : ¬ (isReplacedIn w.artifact.artifactId ws = false → w' = w) := fun hh =>
        hlive ⟨hh, hrest⟩
      obtain ⟨hrep, hne⟩ := Classical.not_imp.mp hhead
      have hps' : ps ≠ [] := by
        rintro rfl
        refine hne ?_
        obtain ⟨a', b'⟩ := w'
        obtain ⟨a, b⟩ := w
        simp_all
      have hpos : 0 < ps.length := List.length_pos_iff.mpr hps'
      refine ⟨w.artifact.artifactId, fun n n' hn => ?_⟩
      rw [partCountFrom, partCountFrom, happ, hps, Artifact.extend_artifactId,
        Artifact.extend_parts, List.length_append, if_pos rfl, if_pos rfl]
      refine partCountFrom_lt htail hrep ?_
      split <;> omega
    · obtain ⟨x, hx⟩ := ih hrest
      refine ⟨x, fun n n' hn => ?_⟩
      rw [partCountFrom, partCountFrom, happ, hps, Artifact.extend_artifactId,
        Artifact.extend_parts, List.length_append]
      split
      · refine hx _ _ ?_
        split <;> omega
      · exact hx _ _ hn

/-- A grown batch means the same iff its live writes have not grown. -/
theorem applyWrites_eq_iff_liveEq {ws ws' : List (ArtifactWrite Artifact)} (h : Extended ws ws')
    (l : List Artifact) : applyWrites l ws' = applyWrites l ws ↔ LiveEq ws ws' := by
  constructor
  · intro heq
    by_contra hlive
    obtain ⟨x, hx⟩ := exists_partCountFrom_lt h hlive
    have hlt := hx (partCount x l) (partCount x l) le_rfl
    rw [← partCount_applyWrites, ← partCount_applyWrites, heq] at hlt
    exact lt_irrefl _ hlt
  · intro hlive
    exact applyWrites_eq_of_liveEq h hlive (AgreeUpTo.refl _ l)

/-! ### Lost attempts -/

theorem extended_inflate (present : List String) (ws : List (ArtifactWrite Artifact)) :
    Extended ws (inflate present ws) := by
  induction ws generalizing present with
  | nil => exact List.Forall₂.nil
  | cons w ws ih =>
    refine List.Forall₂.cons ?_ (ih _)
    split
    · exact ⟨rfl, _, rfl⟩
    · exact ⟨rfl, [], by simp⟩

theorem liveEq_inflate_iff (present : List String) (ws : List (ArtifactWrite Artifact)) :
    LiveEq ws (inflate present ws) ↔ retrySafe present ws = true := by
  induction ws generalizing present with
  | nil => simp [LiveEq, retrySafe]
  | cons w ws ih =>
    obtain ⟨a, append⟩ := w
    rw [inflate, retrySafe, LiveEq, ih, Bool.and_eq_true]
    refine and_congr_left fun _ => ?_
    by_cases hplaced : isPlaced present ⟨a, append⟩ = true
    · cases hrep : isReplacedIn a.artifactId ws <;>
        simp [hplaced, Artifact.extend_eq_self]
    · simp [hplaced]

/-- The appends behind an id that is already present are never placed, so a merge
does not extend them. -/
theorem followParts_inflate {present : List String} {x : String} (hx : x ∈ present)
    (ws : List (ArtifactWrite Artifact)) :
    followParts x (inflate present ws) = followParts x ws := by
  induction ws generalizing present with
  | nil => rfl
  | cons w ws ih =>
    have htail := ih (List.mem_cons_of_mem w.artifact.artifactId hx)
    have hhead : (if isPlaced present w then
        { w with artifact := w.artifact.extend (followParts w.artifact.artifactId ws) }
        else w).artifact.artifactId = w.artifact.artifactId ∧
        (if isPlaced present w then
        { w with artifact := w.artifact.extend (followParts w.artifact.artifactId ws) }
        else w).append = w.append := by
      split <;> exact ⟨rfl, rfl⟩
    rw [inflate, followParts, followParts, hhead.1, hhead.2, htail]
    by_cases hid : w.artifact.artifactId = x
    · rw [if_pos hid, if_pos hid]
      cases happ : w.append with
      | false => rfl
      | true =>
        have hplaced : isPlaced present w = false := by
          simp [isPlaced, happ, hid, hx]
        rw [if_pos rfl, if_pos rfl, hplaced]
        rfl
    · rw [if_neg hid, if_neg hid]

/-- A replacement at the end of the batch contributes no parts. -/
theorem followParts_concat_replace (x : String) (ws : List (ArtifactWrite Artifact))
    (a : Artifact) : followParts x (ws ++ [⟨a, false⟩]) = followParts x ws := by
  induction ws with
  | nil => simp [followParts]
  | cons w ws ih => rw [List.cons_append, followParts, followParts, ih]

theorem inflate_concat_replace (present : List String) (ws : List (ArtifactWrite Artifact))
    (a : Artifact) : inflate present (ws ++ [⟨a, false⟩]) = inflate present ws ++ [⟨a, false⟩] := by
  induction ws generalizing present with
  | nil => simp [inflate, isPlaced, followParts]
  | cons w ws ih =>
    rw [List.cons_append, inflate, inflate, ih, followParts_concat_replace, List.cons_append]

/-- Whether a merge is safe to lose does not depend on the merges lost before it. -/
theorem retrySafe_inflate (present qs : List String) (ws : List (ArtifactWrite Artifact)) :
    retrySafe qs (inflate present ws) = retrySafe qs ws := by
  induction ws generalizing present qs with
  | nil => rfl
  | cons w ws ih =>
    have hfollow := followParts_inflate (List.mem_cons_self (a := w.artifact.artifactId)
      (l := present)) ws
    have hrep := (extended_inflate (w.artifact.artifactId :: present) ws).isReplacedIn_eq
      w.artifact.artifactId
    rw [inflate]
    split
    · rw [retrySafe, retrySafe, ih]
      simp only [Artifact.extend_artifactId, hfollow, hrep, isPlaced]
    · rw [retrySafe, retrySafe, ih, hfollow, hrep]

/-- The batch after lost attempts that read the id lists `lost`. -/
def inflateAll (lost : List (List String)) (ws : List (ArtifactWrite Artifact)) :
    List (ArtifactWrite Artifact) :=
  lost.foldl (fun ws present => inflate present ws) ws

theorem extended_inflateAll (lost : List (List String)) (ws : List (ArtifactWrite Artifact)) :
    Extended ws (inflateAll lost ws) := by
  induction lost generalizing ws with
  | nil => exact Extended.refl ws
  | cons present lost ih => exact (extended_inflate present ws).trans (ih _)

theorem liveEq_inflateAll_iff (lost : List (List String)) (ws : List (ArtifactWrite Artifact)) :
    LiveEq ws (inflateAll lost ws) ↔ ∀ present ∈ lost, retrySafe present ws = true := by
  induction lost generalizing ws with
  | nil => simp [inflateAll, LiveEq.refl]
  | cons present lost ih =>
    rw [show inflateAll (present :: lost) ws = inflateAll lost (inflate present ws) from rfl,
      liveEq_trans_iff (extended_inflate present ws) (extended_inflateAll lost _),
      liveEq_inflate_iff, ih, List.forall_mem_cons]
    simp only [retrySafe_inflate]

/-- **Repeated merges.**  After any lost attempts, the next merge computes the
fold of the writes as they were built iff every lost attempt was safe to lose. -/
theorem applyWrites_inflateAll_iff (lost : List (List String))
    (ws : List (ArtifactWrite Artifact)) (l : List Artifact) :
    applyWrites l (inflateAll lost ws) = applyWrites l ws ↔
      ∀ present ∈ lost, retrySafe present ws = true := by
  rw [applyWrites_eq_iff_liveEq (extended_inflateAll lost ws), liveEq_inflateAll_iff]

end A2AKit
