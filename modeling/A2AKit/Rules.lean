/-
Rules for the programs of the emitter.

An assertion about the world is stable if the other parties keep it.  For every program
of the emitter there is one rule over stable assertions.  `UpdateSteps` says what a call
of `update_task` needs: `J` up to the commit, `M` between merge and commit on SQL and
Redis, `C v` once version `v` is committed, and `X x` when the call has raised `x`.
`UpdateSteps.wp` is the rule for the retry loop and for what the emitter awaits after it.
-/
import A2AKit.Emitter

namespace A2AKit

/-- The other parties keep `J`. -/
def Setting.Stable (T : Setting) (J : World → Prop) : Prop := ∀ w w', EnvStep T w w' → J w → J w'

namespace Setting.Stable

variable {T : Setting} {req : {β : Type} → Op β → World → Prop} {σ α : Type} {s : σ} {w w' : World}
  {Q : Except Exc α → σ → World → Prop} {J K : World → Prop}

theorem rely (hJ : T.Stable J) (h : (T.systemWith req).Rely w w') (hw : J w) : J w' :=
  System.Stable.rely (S := T.systemWith req) hJ h hw

theorem and (hJ : T.Stable J) (hK : T.Stable K) : T.Stable fun w => J w ∧ K w :=
  fun w w' hstep hw => ⟨hJ w w' hstep hw.1, hK w w' hstep hw.2⟩

theorem or (hJ : T.Stable J) (hK : T.Stable K) : T.Stable fun w => J w ∨ K w :=
  fun w w' hstep hw => hw.imp (hJ w w' hstep) (hK w w' hstep)

theorem imp {p : Prop} (hJ : p → T.Stable J) : T.Stable fun w => p → J w :=
  fun w w' hstep hw hp => hJ hp w w' hstep (hw hp)

theorem const (p : Prop) : T.Stable fun _ => p := fun _ _ _ h => h

theorem ret {a : α} (hJ : T.Stable J) (hw : J w) (hQ : ∀ w, J w → Q (.ok a) s w) :
    (pure a : TaskM σ α).wp (T.systemWith req) Q s w :=
  Act.wp_pure fun w' hrely => hQ w' (hJ.rely hrely hw)

theorem raise {x : Exc} (hJ : T.Stable J) (hw : J w) (hQ : ∀ w, J w → Q (.error x) s w) :
    (throw x : TaskM σ α).wp (T.systemWith req) Q s w :=
  Act.wp_throw fun w' hrely => hQ w' (hJ.rely hrely hw)

theorem get {Q : Except Exc σ → σ → World → Prop} (hJ : T.Stable J) (hw : J w)
    (hQ : ∀ w, J w → Q (.ok s) s w) : (Act.get : TaskM σ σ).wp (T.systemWith req) Q s w :=
  Act.wp_get fun w' hrely => hQ w' (hJ.rely hrely hw)

theorem modify {Q : Except Exc Unit → σ → World → Prop} {f : σ → σ} (hJ : T.Stable J) (hw : J w)
    (hQ : ∀ w, J w → Q (.ok ()) (f s) w) :
    (Act.modify f : TaskM σ Unit).wp (T.systemWith req) Q s w :=
  Act.wp_modify fun w' hrely => hQ w' (hJ.rely hrely hw)

/-- An operation, with what holds after it as `K`. -/
theorem op {e : Op α} {K : α → World → Prop} (hJ : T.Stable J) (hw : J w)
    (hK : ∀ a, T.Stable (K a)) (hreq : ∀ w, J w → T.ok e w → req e w)
    (h : ∀ w w' a, J w → T.ok e w → World.perform T.cfg T.taskId e w = some (w', a) → K a w')
    (hQ : ∀ a w, K a w → Q (.ok a) s w) :
    (Act.perform e : TaskM σ α).wp (T.systemWith req) Q s w := by
  refine Act.wp_perform fun w₁ hrely hok => ?_
  have hw₁ : J w₁ := hJ.rely hrely hw
  refine ⟨hreq w₁ hw₁ hok, fun w₂ a hperf w₃ hrely' => hQ a w₃ ?_⟩
  exact (hK a).rely hrely' (h w₁ w₂ a hw₁ hok hperf)

/-- An operation that keeps `J`. -/
theorem keep {e : Op α} (hJ : T.Stable J) (hw : J w) (hreq : ∀ w, J w → T.ok e w → req e w)
    (h : ∀ w w' a, J w → T.ok e w → World.perform T.cfg T.taskId e w = some (w', a) → J w')
    (hQ : ∀ a w, J w → Q (.ok a) s w) :
    (Act.perform e : TaskM σ α).wp (T.systemWith req) Q s w :=
  hJ.op hw (K := fun _ => J) (fun _ => hJ) hreq h hQ

/-- An operation that only asks. -/
theorem ask {e : Op α} (hJ : T.Stable J) (hw : J w) (hreq : ∀ w, J w → T.ok e w → req e w)
    (he : ∀ w, ∃ a, World.perform T.cfg T.taskId e w = some (w, a))
    (hQ : ∀ a w, J w → Q (.ok a) s w) :
    (Act.perform e : TaskM σ α).wp (T.systemWith req) Q s w := by
  refine hJ.keep hw hreq (fun w w' a hw _ hperf => ?_) hQ
  obtain ⟨a', ha'⟩ := he w
  rw [← (Prod.mk.inj (Option.some_inj.mp (ha'.symm.trans hperf))).1]
  exact hw

/-- An await, with what holds when the cancellation is delivered as `X`. -/
theorem await {Q : Except Exc Unit → σ → World → Prop} {X : World → Prop} {pt : AwaitPoint}
    (hJ : T.Stable J) (hw : J w) (hX : T.Stable X)
    (hreq : ∀ w, J w → T.ok (.await pt) w → req (.await pt) w)
    (hx : ∀ w, J w → T.ok (.await pt) w → w.interrupted = true → X w)
    (hQ : ∀ w, J w → Q (.ok ()) s w) (hQx : ∀ w, X w → Q (.error .cancelled) s w) :
    (checkpoint pt : TaskM σ Unit).wp (T.systemWith req) Q s w := by
  refine Act.wp_bind (hJ.op hw (K := fun raised w => if raised then X w else J w) ?_ hreq ?_ ?_)
  · intro raised
    cases raised with
    | true => exact hX
    | false => exact hJ
  · intro w w' raised hw hok hperf
    obtain ⟨rfl, hraised⟩ := Prod.mk.inj (Option.some_inj.mp hperf)
    cases raised with
    | true => exact hx w hw hok hraised
    | false => exact hw
  · intro raised w hw
    cases raised with
    | true => exact hX.raise hw hQx
    | false => exact hJ.ret hw hQ

end Setting.Stable

/-! ### `update_task` -/

theorem SplitStorage.retry_attempt {b : SplitStorage} {taskId : TaskId} {args : UpdateArgs Ref}
    {stored : Option Row} {attempt : Nat} {row : Row} {values : Values}
    (h : b.backend.updateWrite taskId stored args attempt row values = .retry) :
    attempt ≠ maxAttempts args - 1 := by
  cases b with
  | sql =>
    change SQLStorageBase.updateWrite taskId stored args attempt row values = _ at h
    simp only [SQLStorageBase.updateWrite] at h
    split at h
    · simp at h
    · split at h
      · simp at h
      · rename_i hlast
        simp at hlast
        exact hlast.2
  | redis =>
    change RedisStorage.updateWrite taskId stored args attempt row values = _ at h
    simp only [RedisStorage.updateWrite] at h
    split at h
    · simp at h
    · simp at h
    · split at h
      · simp at h
      · split at h
        · simp at h
        · rename_i hlast
          exact hlast
    · simp at h

theorem maxAttempts_pos (args : UpdateArgs Ref) : ∃ n, maxAttempts args = n + 1 := by
  rw [maxAttempts]
  split
  · exact ⟨0, rfl⟩
  · exact ⟨7, rfl⟩

/-- What an `update_task` of the emitter needs of the assertions around it. -/
structure UpdateSteps (T : Setting) (req : {β : Type} → Op β → World → Prop) (k : StorageKind)
    (site : Site) (args : UpdateArgs Ref) (J : World → Prop) (M : Row → Values → World → Prop)
    (C : Nat → World → Prop) (X : Exc → World → Prop) : Prop where
  stable : T.Stable J
  stable_merged : ∀ row values, T.Stable (M row values)
  stable_commit : ∀ v, T.Stable (C v)
  stable_raise : ∀ x, T.Stable (X x)
  req_await : ∀ pt w, req (.await pt) w
  req_update : ∀ w, J w → T.ok (.update site args) w → req (.update site args) w
  req_read : ∀ b w, J w → T.ok (.updateRead b site args) w → req (.updateRead b site args) w
  req_write : ∀ b attempt row values w, k = .split b → M row values w →
    T.ok (.updateWrite b site args attempt row values) w →
    req (.updateWrite b site args attempt row values) w
  update : ∀ w w' r, k = .memory → J w → T.ok (.update site args) w →
    World.perform T.cfg T.taskId (.update site args) w = some (w', r) →
    match r with
    | .ok v => C v w'
    | .error e => X (.storage e) w'
  read : ∀ b w w' r, k = .split b → J w → T.ok (.updateRead b site args) w →
    World.perform T.cfg T.taskId (.updateRead b site args) w = some (w', r) →
    match r with
    | .ok (row, values) => M row values w'
    | .error e => X (.storage e) w'
  write : ∀ b attempt row values w w' out, k = .split b → M row values w →
    T.ok (.updateWrite b site args attempt row values) w →
    World.perform T.cfg T.taskId (.updateWrite b site args attempt row values) w = some (w', out) →
    match out with
    | .committed row' => C row'.version w'
    | .retry => J w'
    | .raised e => X (.storage e) w'
  cancelled : ∀ w, J w → w.interrupted = true → X .cancelled w
  lost : ∀ row values w, M row values w → T.ok (.await (.merged site args row)) w →
    w.interrupted = true → X .cancelled w
  interrupted : ∀ v w, C v w → T.ok (.await (.committed site args)) w → w.interrupted = true →
    X .cancelled w

/-- What holds when the call is over. -/
def UpdateEnds {σ α : Type} (C : α → World → Prop) (X : Exc → World → Prop) (s : σ)
    (r : Except Exc α) (s' : σ) (w : World) : Prop :=
  s' = s ∧ match r with
    | .ok v => C v w
    | .error x => X x w

namespace UpdateSteps

variable {T : Setting} {req : {β : Type} → Op β → World → Prop} {σ : Type} {s : σ} {w : World}
  {k : StorageKind} {b : SplitStorage} {site : Site} {args : UpdateArgs Ref} {J : World → Prop}
  {M : Row → Values → World → Prop} {C : Nat → World → Prop} {X : Exc → World → Prop}

/-- The await after the commit. -/
theorem wp_committed {Q : Except Exc Unit → σ → World → Prop}
    (hr : UpdateSteps T req k site args J M C X) {v : Nat} (hw : C v w)
    (hQ : ∀ w, C v w → Q (.ok ()) s w) (hQx : ∀ w, X .cancelled w → Q (.error .cancelled) s w) :
    (checkpoint (.committed site args) : TaskM σ Unit).wp (T.systemWith req) Q s w :=
  (hr.stable_commit v).await hw (hr.stable_raise .cancelled) (fun w _ _ => hr.req_await _ w)
    (hr.interrupted v) hQ hQx

/-- The retry loop, by induction on the attempts that are left. -/
theorem wp_updateLoop (hr : UpdateSteps T req (.split b) site args J M C X) {n attempt : Nat}
    (hn : attempt + (n + 1) = maxAttempts args) (hw : J w) :
    (updateLoop b site args (n + 1) attempt : TaskM σ Nat).wp (T.systemWith req)
      (UpdateEnds C X s) s w := by
  induction n generalizing attempt w with
  | zero | succ n ih =>
    refine Act.wp_bind (hr.stable.await hw (hr.stable_raise .cancelled)
      (fun w _ _ => hr.req_await _ w) (fun w hw _ hi => hr.cancelled w hw hi) ?_
      fun w hw => ⟨rfl, hw⟩)
    intro w hw
    refine Act.wp_bind (hr.stable.op hw (K := fun out w => match out with
      | .ok (row, values) => M row values w
      | .error e => X (.storage e) w) ?_ (hr.req_read b)
      (fun w w' out hw hok hperf => hr.read b w w' out rfl hw hok hperf) ?_)
    · rintro (e | ⟨row, values⟩)
      · exact hr.stable_raise _
      · exact hr.stable_merged row values
    rintro (e | ⟨row, values⟩) w hw
    · exact (hr.stable_raise _).raise hw fun w hw => ⟨rfl, hw⟩
    refine Act.wp_bind ((hr.stable_merged row values).await hw (hr.stable_raise .cancelled)
      (fun w _ _ => hr.req_await _ w) (hr.lost row values) ?_ fun w hw => ⟨rfl, hw⟩)
    intro w hw
    refine Act.wp_bind ((hr.stable_merged row values).op hw (K := fun out w => match out with
      | .committed row' => C row'.version w
      | .retry => J w ∧ attempt ≠ maxAttempts args - 1
      | .raised e => X (.storage e) w) ?_ (fun w hw hok => hr.req_write b attempt row values w rfl hw hok) ?_ ?_)
    · rintro (row' | _ | e)
      · exact hr.stable_commit _
      · exact hr.stable.and (Setting.Stable.const _)
      · exact hr.stable_raise _
    · intro w w' out hw hok hperf
      have hout := hr.write b attempt row values w w' out rfl hw hok hperf
      rcases out with row' | _ | e
      · exact hout
      · have hretry : b.backend.updateWrite T.taskId w.row args attempt row values = .retry := by
          simp only [World.perform] at hperf
          split at hperf
          · simp at hperf
          · exact (Prod.mk.inj (Option.some_inj.mp hperf)).2
        exact ⟨hout, SplitStorage.retry_attempt hretry⟩
      · exact hout
    rintro (row' | _ | e) w hw
    · refine Act.wp_bind (hr.wp_committed hw ?_ fun w hw => ⟨rfl, hw⟩)
      intro w hw
      exact (hr.stable_commit _).ret hw fun w hw => ⟨rfl, hw⟩
    · first
        | exact absurd hw.2 (by omega)
        | exact ih (by omega) hw.1
    · exact (hr.stable_raise _).raise hw fun w hw => ⟨rfl, hw⟩

/-- `update_task` of the storage. -/
theorem wp_updateTask (hr : UpdateSteps T req k site args J M C X) (hw : J w) :
    (updateTask k site args : TaskM σ Nat).wp (T.systemWith req) (UpdateEnds C X s) s w := by
  cases k with
  | split b =>
    obtain ⟨n, hn⟩ := maxAttempts_pos args
    show (updateLoop b site args (maxAttempts args) 0 : TaskM σ Nat).wp _ _ _ _
    rw [hn]
    exact hr.wp_updateLoop (by omega) hw
  | memory =>
    refine Act.wp_bind (hr.stable.op hw (K := fun out w => match out with
      | .ok v => C v w
      | .error e => X (.storage e) w) ?_ hr.req_update
      (fun w w' out hw hok hperf => hr.update w w' out rfl hw hok hperf) ?_)
    · rintro (e | v)
      · exact hr.stable_raise _
      · exact hr.stable_commit _
    · rintro (e | v) w hw
      · exact (hr.stable_raise _).raise hw fun w hw => ⟨rfl, hw⟩
      · exact (hr.stable_commit v).ret hw fun w hw => ⟨rfl, hw⟩

theorem wp_notify (hr : UpdateSteps T req k site args J M C X) {v : Nat} (hw : C v w) :
    (Emitter.notify site args : TaskM σ Unit).wp (T.systemWith req)
      (UpdateEnds (fun _ => C v) X s) s w := by
  have hx : ∀ w : World, X .cancelled w → s = s ∧ X .cancelled w := fun _ hw => ⟨rfl, hw⟩
  rw [Emitter.notify]
  split
  · exact (hr.stable_commit v).ret hw fun w hw => ⟨rfl, hw⟩
  · refine Act.wp_bind (hr.wp_committed hw (fun w hw => ?_) hx)
    refine Act.wp_bind (hr.wp_committed hw (fun w hw => ?_) hx)
    refine Act.wp_bind (hr.wp_committed hw (fun w hw => ?_) hx)
    refine Act.wp_bind (hr.wp_committed hw (fun w hw => ?_) hx)
    exact hr.wp_committed hw (fun w hw => ⟨rfl, hw⟩) hx

/-- `update_task` of the emitter. -/
theorem wp (hr : UpdateSteps T req k site args J M C X) (hw : J w) :
    (Emitter.updateTask k site args : TaskM σ Nat).wp (T.systemWith req) (UpdateEnds C X s) s w := by
  refine Act.wp_bind (Act.wp_mono (hr.wp_updateTask hw) ?_)
  rintro (x | v) s' w ⟨rfl, hw⟩
  · exact ⟨rfl, hw⟩
  refine Act.wp_bind (Act.wp_mono (hr.wp_notify hw) ?_)
  rintro (x | _) s' w ⟨rfl, hw⟩
  · exact ⟨rfl, hw⟩
  · exact (hr.stable_commit v).ret hw fun w hw => ⟨rfl, hw⟩

end UpdateSteps

end A2AKit
