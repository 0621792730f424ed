import Mathlib.Data.List.Induction

namespace InfraSightGpu.Lib.Runs

variable {S T A : Type}

def exec (step : S → A → Option S) (s : S) (as : List A) : Option S :=
  as.foldlM step s

@[simp] theorem exec_nil (step : S → A → Option S) (s : S) : exec step s [] = some s := rfl

@[simp] theorem exec_cons (step : S → A → Option S) (s : S) (a : A) (as : List A) :
    exec step s (a :: as) = (step s a).bind (exec step · as) := rfl

/-- That a run is possible and ends in a state with a property can be
evaluated, by performing the run once. -/
instance decidableExistsSome (o : Option S) (P : S → Prop) [DecidablePred P] :
    Decidable (∃ t, o = some t ∧ P t) :=
  inferInstanceAs (Decidable (∃ t ∈ o, P t))

theorem exec_append (step : S → A → Option S) (s : S) (as bs : List A) :
    exec step s (as ++ bs) = (exec step s as).bind (exec step · bs) := by
  simp [exec, List.foldlM_append]

theorem exec_snoc_eq_some {step : S → A → Option S} {s u : S} {as : List A} {a : A} :
    exec step s (as ++ [a]) = some u ↔ ∃ t, exec step s as = some t ∧ step t a = some u := by
  simp [exec_append, Option.bind_eq_some_iff]

/-- The invariant rule for runs. The invariant may speak of the actions
performed so far, and the step case may use that the state is reachable. -/
theorem exec_induction {step : S → A → Option S} {s : S} {I : List A → S → Prop}
    (h0 : I [] s)
    (hstep : ∀ as t a u, exec step s as = some t → I as t → step t a = some u → I (as ++ [a]) u)
    {as : List A} {t : S} (h : exec step s as = some t) : I as t := by
  induction as using List.reverseRecOn generalizing t with
  | nil =>
    rw [exec_nil, Option.some.injEq] at h
    exact h ▸ h0
  | append_singleton as a ih =>
    obtain ⟨u, hu, ha⟩ := exec_snoc_eq_some.mp h
    exact hstep as u a t hu (ih hu) ha

/-- Every action of the run is performed in a state where the condition holds. -/
def Along (step : S → A → Option S) (P : S → A → Prop) (s : S) (as : List A) : Prop :=
  ∀ pre a post, as = pre ++ a :: post → ∀ t, exec step s pre = some t → P t a

@[simp] theorem along_nil (step : S → A → Option S) (P : S → A → Prop) (s : S) :
    Along step P s [] :=
  fun pre a post h => by simp at h

theorem along_congr {step : S → A → Option S} {P Q : S → A → Prop} {s : S} {as : List A}
    (h : ∀ bs t a, exec step s bs = some t → (P t a ↔ Q t a)) :
    Along step P s as ↔ Along step Q s as := by
  constructor <;> intro hal pre a post he t ht
  · exact (h pre t a ht).mp (hal pre a post he t ht)
  · exact (h pre t a ht).mpr (hal pre a post he t ht)

theorem along_forall {ι : Type*} {step : S → A → Option S} {P : ι → S → A → Prop} {s : S}
    {as : List A} :
    (∀ i, Along step (P i) s as) ↔ Along step (fun t a => ∀ i, P i t a) s as :=
  ⟨fun h pre a post he t ht i => h i pre a post he t ht,
    fun h i pre a post he t ht => h pre a post he t ht i⟩

theorem along_snoc {step : S → A → Option S} {P : S → A → Prop} {s : S} {as : List A} {a : A} :
    Along step P s (as ++ [a]) ↔
      Along step P s as ∧ ∀ t, exec step s as = some t → P t a := by
  constructor
  · intro h
    exact ⟨fun pre b post he => h pre b (post ++ [a]) (by simp [he]), h as a [] rfl⟩
  · rintro ⟨h, ha⟩ pre b post he t ht
    obtain rfl | ⟨post, c, rfl⟩ := List.eq_nil_or_concat post
    · obtain ⟨rfl, hb⟩ := List.append_inj' he rfl
      cases hb
      exact ha t ht
    · rw [List.concat_eq_append, ← List.cons_append, ← List.append_assoc] at he
      obtain ⟨rfl, -⟩ := List.append_inj' he rfl
      exact h pre b post rfl t ht

theorem along_cons {step : S → A → Option S} {P : S → A → Prop} {s : S} {a : A} {as : List A} :
    Along step P s (a :: as) ↔ P s a ∧ ∀ t ∈ step s a, Along step P t as := by
  constructor
  · intro h
    refine ⟨h [] a as rfl s rfl, fun t ht pre b post he u hu => ?_⟩
    refine h (a :: pre) b post (by rw [he, List.cons_append]) u ?_
    rw [exec_cons, Option.mem_def.mp ht]
    exact hu
  · rintro ⟨ha, h⟩ pre b post he u hu
    cases pre with
    | nil =>
      cases he
      cases hu
      exact ha
    | cons c pre =>
      cases he
      obtain ⟨t, ht, hu⟩ := Option.bind_eq_some_iff.mp hu
      exact h t ht pre b post rfl u hu

theorem along_of_append {step : S → A → Option S} {P : S → A → Prop} {s : S} {as bs : List A}
    (h : Along step P s (as ++ bs)) : Along step P s as :=
  fun pre a post he => h pre a (post ++ bs) (by rw [he, List.append_assoc, List.cons_append])

theorem along_imp {step : S → A → Option S} {P Q : S → A → Prop} {s : S}
    (hpq : ∀ as t a, exec step s as = some t → Along step P s as → Q t a) {as : List A}
    (h : Along step P s as) : Along step Q s as := by
  rintro pre a post rfl t ht
  exact hpq pre t a ht (along_of_append h)

instance decidableAlong (step : S → A → Option S) (P : S → A → Prop) [∀ s a, Decidable (P s a)] :
    (s : S) → (as : List A) → Decidable (Along step P s as)
  | s, [] => isTrue (along_nil step P s)
  | s, a :: as =>
    have (t : S) := decidableAlong step P t as
    decidable_of_iff (P s a ∧ ∀ t ∈ step s a, Along step P t as) along_cons.symm

/-- When a step leads to a good state exactly from a good state and under a
condition, a run ends in a good state exactly when all its steps meet it. -/
theorem holds_iff_along {step : S → A → Option S} {P : S → Prop} {C : S → A → Prop} {s : S}
    (h0 : P s) (hstep : ∀ t a u, step t a = some u → (P u ↔ P t ∧ C t a)) {as : List A} {t : S}
    (h : exec step s as = some t) : P t ↔ Along step C s as := by
  induction as using List.reverseRecOn generalizing t with
  | nil =>
    rw [exec_nil, Option.some.injEq] at h
    exact iff_of_true (h ▸ h0) (along_nil step C s)
  | append_singleton as a ih =>
    obtain ⟨u, hu, ha⟩ := exec_snoc_eq_some.mp h
    rw [along_snoc, hstep u a t ha, ih hu]
    simp only [hu, Option.some.injEq, forall_eq']

def Always (step : S → A → Option S) (P : S → Prop) (s : S) (as : List A) : Prop :=
  ∀ pre, pre <+: as → ∀ t, exec step s pre = some t → P t

theorem always_nil {step : S → A → Option S} {P : S → Prop} {s : S} :
    Always step P s [] ↔ P s := by
  constructor
  · exact fun h => h [] List.prefix_rfl s rfl
  · rintro h pre hpre t ht
    rw [List.prefix_nil.mp hpre] at ht
    exact Option.some.inj ht ▸ h

theorem always_snoc {step : S → A → Option S} {P : S → Prop} {s : S} {as : List A} {a : A} :
    Always step P s (as ++ [a]) ↔
      Always step P s as ∧ ∀ u, exec step s (as ++ [a]) = some u → P u := by
  constructor
  · intro h
    exact ⟨fun pre hpre => h pre (hpre.trans (List.prefix_append _ _)),
      h (as ++ [a]) List.prefix_rfl⟩
  · rintro ⟨h, ha⟩ pre hpre t ht
    obtain rfl | hpre := List.prefix_concat_iff.mp hpre
    · exact ha t ht
    · exact h pre hpre t ht

/-- When a step out of a good state leads to a good state exactly under a
condition, a run stays in good states exactly when all its steps meet the
condition. The invariant may use that the states so far are good. -/
theorem always_iff_along {step : S → A → Option S} {P I : S → Prop} {C : S → A → Prop} {s : S}
    (h0 : P s) (hI : I s) (hstep : ∀ t a u, I t → P t → step t a = some u → (P u ↔ C t a))
    (hinv : ∀ t a u, I t → P t → C t a → step t a = some u → I u) {as : List A} {t : S}
    (h : exec step s as = some t) :
    (Always step P s as ↔ Along step C s as) ∧ (Along step C s as → I t ∧ P t) := by
  induction as using List.reverseRecOn generalizing t with
  | nil =>
    rw [exec_nil, Option.some.injEq] at h
    exact ⟨iff_of_true (always_nil.mpr h0) (along_nil step C s), fun _ => h ▸ ⟨hI, h0⟩⟩
  | append_singleton as a ih =>
    obtain ⟨u, hu, ha⟩ := exec_snoc_eq_some.mp h
    obtain ⟨hiff, hgood⟩ := ih hu
    rw [always_snoc, along_snoc, hiff]
    simp only [h, hu, Option.some.injEq, forall_eq']
    refine ⟨and_congr_right fun hal => ?_, fun hal => ?_⟩
    · obtain ⟨hiu, hpu⟩ := hgood hal
      exact hstep u a t hiu hpu ha
    · obtain ⟨hiu, hpu⟩ := hgood hal.1
      exact ⟨hinv u a t hiu hpu hal.2 ha, (hstep u a t hiu hpu ha).mpr hal.2⟩

/-- When a condition on the steps is what keeps an invariant, and under the
invariant it says the same as another condition, a run meets both or neither. -/
theorem along_iff_along {step : S → A → Option S} {I : S → Prop} {Q C : S → A → Prop} {s : S}
    (hI : I s) (hiff : ∀ t a, I t → (Q t a ↔ C t a))
    (hinv : ∀ t a u, I t → C t a → step t a = some u → I u) {as : List A} :
    Along step Q s as ↔ Along step C s as := by
  have hkeep : ∀ as t, exec step s as = some t → Along step C s as → I t := by
    intro as t h
    refine exec_induction (I := fun as t => Along step C s as → I t) (fun _ => hI) ?_ h
    intro as t a u ht ih hs hal
    obtain ⟨hbefore, hlast⟩ := along_snoc.mp hal
    exact hinv t a u (ih hbefore) (hlast t ht) hs
  induction as using List.reverseRecOn with
  | nil => exact iff_of_true (along_nil step Q s) (along_nil step C s)
  | append_singleton as a ih =>
    rw [along_snoc, along_snoc]
    constructor
    · rintro ⟨hal, ha⟩
      exact ⟨ih.mp hal, fun t ht => (hiff t a (hkeep as t ht (ih.mp hal))).mp (ha t ht)⟩
    · rintro ⟨hal, ha⟩
      exact ⟨ih.mpr hal, fun t ht => (hiff t a (hkeep as t ht hal)).mpr (ha t ht)⟩

section Projections

variable {Q B : Type} {step : S → A → Option S} {stepQ : Q → B → Option Q} {g : S → Q}
  {v : A → Option B} {I : S → Prop}

/-- A part of the state that follows a machine of its own, which sees only the
view of each action, is a run of that machine over the views. -/
theorem exec_project (hI : ∀ s a u, I s → step s a = some u → I u)
    (hsim : ∀ s a u, I s → step s a = some u → exec stepQ (g s) (v a).toList = some (g u))
    {s : S} (h0 : I s) {as : List A} {t : S} (h : exec step s as = some t) :
    exec stepQ (g s) (as.filterMap v) = some (g t) := by
  induction as generalizing s with
  | nil =>
    rw [exec_nil, Option.some.injEq] at h
    exact congrArg (fun s => some (g s)) h
  | cons a as ih =>
    obtain ⟨u, hu, hrest⟩ := Option.bind_eq_some_iff.mp h
    have hviews : (a :: as).filterMap v = (v a).toList ++ as.filterMap v := by
      cases hv : v a <;> simp [hv]
    rw [hviews, exec_append, hsim s a u h0 hu]
    exact ih (hI s a u h0 hu) hrest

theorem proj_eq_of_views_eq (hI : ∀ s a u, I s → step s a = some u → I u)
    (hsim : ∀ s a u, I s → step s a = some u → exec stepQ (g s) (v a).toList = some (g u))
    {s s' : S} (h0 : I s) (h0' : I s') (hg : g s = g s') {as as' : List A} {t t' : S}
    (h : exec step s as = some t) (h' : exec step s' as' = some t')
    (hviews : as.filterMap v = as'.filterMap v) : g t = g t' := by
  have hrun := exec_project hI hsim h0 h
  rw [hviews, hg, exec_project hI hsim h0' h'] at hrun
  exact (Option.some.inj hrun).symm

/-- A part of the state that moves only as a machine of its own can move, with
no, one or several of its steps at a time, is in a state that the machine reaches. -/
theorem exec_simulate (hI : ∀ s a u, I s → step s a = some u → I u)
    (hsim : ∀ s a u, I s → step s a = some u → ∃ bs, exec stepQ (g s) bs = some (g u))
    {s : S} (h0 : I s) {as : List A} {t : S} (h : exec step s as = some t) :
    ∃ bs, exec stepQ (g s) bs = some (g t) := by
  induction as generalizing s with
  | nil =>
    rw [exec_nil, Option.some.injEq] at h
    exact ⟨[], congrArg (fun s => some (g s)) h⟩
  | cons a as ih =>
    obtain ⟨u, hu, hrest⟩ := Option.bind_eq_some_iff.mp h
    obtain ⟨bs, hbs⟩ := hsim s a u h0 hu
    obtain ⟨cs, hcs⟩ := ih (hI s a u h0 hu) hrest
    exact ⟨bs ++ cs, by rw [exec_append, hbs, Option.bind_some, hcs]⟩

end Projections

end InfraSightGpu.Lib.Runs
