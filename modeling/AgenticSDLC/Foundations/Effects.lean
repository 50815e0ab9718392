import Mathlib.Data.List.Basic

/-!
# Computations with effects

A computation that changes a state and may raise; what it did to the state before it raised
stays done.  A contract says what a computation keeps and how the states before and after it are
related, and holds of whatever is composed of parts that obey it.
-/

namespace Effects

/-- An invariant of the states, and a preorder that relates each state to those after it. -/
structure Contract (σ : Type) where
  inv : σ → Prop
  rel : σ → σ → Prop
  refl : ∀ s, rel s s
  trans : ∀ {s t u}, rel s t → rel t u → rel s u

/-- The states only grow in their log, by entries that satisfy `p`. -/
def Contract.logging {σ ρ : Type} (inv : σ → Prop) (log : σ → List ρ) (p : ρ → Prop) :
    Contract σ where
  inv := inv
  rel s t := ∃ entries, log t = log s ++ entries ∧ ∀ entry ∈ entries, p entry
  refl s := ⟨[], by simp⟩
  trans := by
    rintro s t u ⟨first, hfirst, hfirsts⟩ ⟨more, hmore, hmores⟩
    refine ⟨first ++ more, by rw [hmore, hfirst, List.append_assoc], ?_⟩
    exact List.forall_mem_append.mpr ⟨hfirsts, hmores⟩

/-- No promise about the states. -/
def Contract.any (σ : Type) : Contract σ where
  inv _ := True
  rel _ _ := True
  refl _ := trivial
  trans _ _ := trivial

variable {σ ε α β : Type}

/-- A computation that only looks at values. -/
instance liftExcept : MonadLift (Except ε) (EStateM ε σ) where
  monadLift x := fun s ↦
    match x with
    | .ok a => .ok a s
    | .error e => .error e s

/-- The computation keeps the invariant, goes on only to related states, and returns only values
that satisfy `p`. -/
def Contract.Obeyed (contract : Contract σ) (m : EStateM ε σ α) (p : α → Prop) : Prop :=
  ∀ s, contract.inv s →
    match m s with
    | .ok a t => contract.inv t ∧ contract.rel s t ∧ p a
    | .error _ t => contract.inv t ∧ contract.rel s t

namespace Contract

variable {contract : Contract σ} {p : α → Prop} {q : β → Prop} {stored : σ → Prop}

theorem obeyed_pure {a : α} (h : p a) : contract.Obeyed (pure a : EStateM ε σ α) p :=
  fun s hs ↦ ⟨hs, contract.refl s, h⟩

theorem obeyed_throw (e : ε) : contract.Obeyed (throw e : EStateM ε σ α) p :=
  fun s hs ↦ ⟨hs, contract.refl s⟩

theorem obeyed_lift {x : Except ε α} (h : ∀ a, x = .ok a → p a) :
    contract.Obeyed (liftM x : EStateM ε σ α) p := by
  intro s hs
  cases x with
  | ok a => exact ⟨hs, contract.refl s, h a rfl⟩
  | error e => exact ⟨hs, contract.refl s⟩

theorem obeyed_get (h : ∀ s, contract.inv s → stored s) :
    contract.Obeyed (get : EStateM ε σ σ) stored :=
  fun s hs ↦ ⟨hs, contract.refl s, h s hs⟩

theorem obeyed_modify {f : σ → σ}
    (h : ∀ s, contract.inv s → contract.inv (f s) ∧ contract.rel s (f s)) :
    contract.Obeyed (modify f : EStateM ε σ Unit) fun _ ↦ True :=
  fun s hs ↦ ⟨(h s hs).1, (h s hs).2, trivial⟩

theorem obeyed_bind {m : EStateM ε σ α} {f : α → EStateM ε σ β} (hm : contract.Obeyed m p)
    (hf : ∀ a, p a → contract.Obeyed (f a) q) : contract.Obeyed (m >>= f) q := by
  intro s hs
  have hfirst := hm s hs
  show match EStateM.bind m f s with
    | .ok b t => contract.inv t ∧ contract.rel s t ∧ q b
    | .error _ t => contract.inv t ∧ contract.rel s t
  cases hrun : m s with
  | error e t =>
      rw [hrun] at hfirst
      rw [EStateM.bind, hrun]
      exact hfirst
  | ok a t =>
      rw [hrun] at hfirst
      obtain ⟨ht, hst, ha⟩ := hfirst
      have hsecond := hf a ha t ht
      rw [EStateM.bind, hrun]
      simp only
      cases hrest : f a t with
      | error e u =>
          rw [hrest] at hsecond
          exact ⟨hsecond.1, contract.trans hst hsecond.2⟩
      | ok b u =>
          rw [hrest] at hsecond
          exact ⟨hsecond.1, contract.trans hst hsecond.2.1, hsecond.2.2⟩

theorem Obeyed.mono {m : EStateM ε σ α} {weaker : α → Prop} (hm : contract.Obeyed m p)
    (h : ∀ a, p a → weaker a) : contract.Obeyed m weaker := by
  intro s hs
  have hrun := hm s hs
  cases hm : m s with
  | error e t =>
      rw [hm] at hrun
      exact hrun
  | ok a t =>
      rw [hm] at hrun
      exact ⟨hrun.1, hrun.2.1, h a hrun.2.2⟩

theorem obeyed_tryCatch {m : EStateM ε σ α} {handler : ε → EStateM ε σ α}
    (hm : contract.Obeyed m p) (hhandler : ∀ e, contract.Obeyed (handler e) p) :
    contract.Obeyed (tryCatch m handler) p := by
  intro s hs
  have hfirst := hm s hs
  show match EStateM.tryCatch m handler s with
    | .ok a t => contract.inv t ∧ contract.rel s t ∧ p a
    | .error _ t => contract.inv t ∧ contract.rel s t
  cases hrun : m s with
  | ok a t =>
      rw [hrun] at hfirst
      rw [EStateM.tryCatch, hrun]
      exact hfirst
  | error e t =>
      rw [hrun] at hfirst
      have hsecond := hhandler e t hfirst.1
      rw [EStateM.tryCatch, hrun]
      show match handler e t with
        | .ok a u => contract.inv u ∧ contract.rel s u ∧ p a
        | .error _ u => contract.inv u ∧ contract.rel s u
      cases hrest : handler e t with
      | error e u =>
          rw [hrest] at hsecond
          exact ⟨hsecond.1, contract.trans hfirst.2 hsecond.2⟩
      | ok b u =>
          rw [hrest] at hsecond
          exact ⟨hsecond.1, contract.trans hfirst.2 hsecond.2.1, hsecond.2.2⟩

theorem obeyed_foldlM {f : β → α → EStateM ε σ β} {items : List α}
    (hf : ∀ item ∈ items, ∀ b, q b → contract.Obeyed (f b item) q) {b : β} (hb : q b) :
    contract.Obeyed (items.foldlM f b) q := by
  induction items generalizing b with
  | nil => exact obeyed_pure hb
  | cons item items ih =>
      rw [List.foldlM_cons]
      refine obeyed_bind (hf item List.mem_cons_self b hb) fun a ha ↦ ?_
      exact ih (fun later hlater ↦ hf later (List.mem_cons_of_mem item hlater)) ha

/-- The same relation, from the states with another property that it keeps. -/
def on (contract : Contract σ) (inv : σ → Prop) : Contract σ := { contract with inv := inv }

theorem Obeyed.imp {weaker : Contract σ} {m : EStateM ε σ α} (hm : contract.Obeyed m p)
    (hinv : ∀ s, weaker.inv s → contract.inv s)
    (hrel : ∀ s t, weaker.inv s → contract.rel s t → weaker.inv t ∧ weaker.rel s t) :
    weaker.Obeyed m p := by
  intro s hs
  have hrun := hm s (hinv s hs)
  cases hm : m s with
  | error e t =>
      rw [hm] at hrun
      exact hrel s t hs hrun.2
  | ok a t =>
      rw [hm] at hrun
      have hstep := hrel s t hs hrun.2.1
      exact ⟨hstep.1, hstep.2, hrun.2.2⟩

/-- The computation keeps to the contract, whatever it returns. -/
def Kept (contract : Contract σ) (m : EStateM ε σ α) : Prop := contract.Obeyed m fun _ ↦ True

theorem kept_pure (a : α) : contract.Kept (pure a : EStateM ε σ α) := obeyed_pure trivial

theorem kept_throw (e : ε) : contract.Kept (throw e : EStateM ε σ α) := obeyed_throw e

theorem kept_lift (x : Except ε α) : contract.Kept (liftM x : EStateM ε σ α) :=
  obeyed_lift fun _ _ ↦ trivial

theorem kept_get : contract.Kept (get : EStateM ε σ σ) := obeyed_get fun _ _ ↦ trivial

theorem Kept.bind_obeyed {m : EStateM ε σ α} {f : α → EStateM ε σ β} (hm : contract.Kept m)
    (hf : ∀ a, contract.Obeyed (f a) q) : contract.Obeyed (m >>= f) q :=
  obeyed_bind hm fun a _ ↦ hf a

theorem Kept.bind {m : EStateM ε σ α} {f : α → EStateM ε σ β} (hm : contract.Kept m)
    (hf : ∀ a, contract.Kept (f a)) : contract.Kept (m >>= f) := hm.bind_obeyed hf

theorem Obeyed.kept {m : EStateM ε σ α} (hm : contract.Obeyed m p) : contract.Kept m :=
  hm.mono fun _ _ ↦ trivial

theorem Kept.tryCatch {m : EStateM ε σ α} {handler : ε → EStateM ε σ α} (hm : contract.Kept m)
    (hhandler : ∀ e, contract.Kept (handler e)) : contract.Kept (tryCatch m handler) :=
  obeyed_tryCatch hm hhandler

theorem kept_forM {f : α → EStateM ε σ PUnit} {items : List α}
    (hf : ∀ item ∈ items, contract.Kept (f item)) : contract.Kept (items.forM f) := by
  induction items with
  | nil => exact kept_pure _
  | cons item items ih =>
      refine (hf item List.mem_cons_self).bind fun _ ↦ ?_
      exact ih fun later hlater ↦ hf later (List.mem_cons_of_mem item hlater)

end Contract

/-! ## The state afterwards -/

/-- The state that a computation leaves, whether it raises or not. -/
def after (m : EStateM ε σ α) (s : σ) : σ :=
  match m s with
  | .ok _ t => t
  | .error _ t => t

theorem Contract.Obeyed.rel_after {contract : Contract σ} {p : α → Prop} {m : EStateM ε σ α}
    (h : contract.Obeyed m p) {s : σ} (hs : contract.inv s) : contract.rel s (after m s) := by
  have hrun := h s hs
  rw [after]
  cases hm : m s with
  | ok a t =>
      rw [hm] at hrun
      exact hrun.2.1
  | error e t =>
      rw [hm] at hrun
      exact hrun.2

theorem Contract.Obeyed.inv_after {contract : Contract σ} {p : α → Prop} {m : EStateM ε σ α}
    (h : contract.Obeyed m p) {s : σ} (hs : contract.inv s) : contract.inv (after m s) := by
  have hrun := h s hs
  rw [after]
  cases hm : m s with
  | ok a t =>
      rw [hm] at hrun
      exact hrun.1
  | error e t =>
      rw [hm] at hrun
      exact hrun.1

theorem Contract.kept_of_after {contract : Contract σ} {m : EStateM ε σ α}
    (h : ∀ s, contract.inv s → contract.inv (after m s) ∧ contract.rel s (after m s)) :
    contract.Kept m := by
  intro s hs
  have hafter := h s hs
  rw [after] at hafter
  cases hm : m s with
  | ok a t =>
      rw [hm] at hafter
      exact ⟨hafter.1, hafter.2, trivial⟩
  | error e t =>
      rw [hm] at hafter
      exact hafter

theorem after_of_ok {m : EStateM ε σ α} {s t : σ} {a : α} (h : m s = .ok a t) :
    after m s = t := by rw [after, h]

theorem after_of_error {m : EStateM ε σ α} {s t : σ} {e : ε} (h : m s = .error e t) :
    after m s = t := by rw [after, h]

theorem after_throw (e : ε) (s : σ) : after (throw e : EStateM ε σ α) s = s := after_of_error rfl

theorem bind_of_ok {m : EStateM ε σ α} {f : α → EStateM ε σ β} {s t : σ} {a : α}
    (h : m s = .ok a t) : (m >>= f) s = f a t := by
  show EStateM.bind m f s = f a t
  rw [EStateM.bind, h]

theorem bind_of_error {m : EStateM ε σ α} {f : α → EStateM ε σ β} {s t : σ} {e : ε}
    (h : m s = .error e t) : (m >>= f) s = .error e t := by
  show EStateM.bind m f s = .error e t
  rw [EStateM.bind, h]

theorem bind_eq_ok_iff {m : EStateM ε σ α} {f : α → EStateM ε σ β} {s u : σ} {b : β} :
    (m >>= f) s = .ok b u ↔ ∃ a t, m s = .ok a t ∧ f a t = .ok b u := by
  cases h : m s with
  | ok a t =>
      rw [bind_of_ok h]
      simp
  | error e t =>
      rw [bind_of_error h]
      simp

theorem lift_eq_ok_iff {x : Except ε α} {s t : σ} {a : α} :
    (liftM x : EStateM ε σ α) s = .ok a t ↔ x = .ok a ∧ s = t := by
  have hlift : (liftM x : EStateM ε σ α) s =
      match x with
      | .ok a => .ok a s
      | .error e => .error e s := rfl
  rw [hlift]
  cases x <;> simp

theorem pure_eq_ok_iff {a b : α} {s t : σ} :
    (pure a : EStateM ε σ α) s = .ok b t ↔ a = b ∧ s = t := by
  have hpure : (pure a : EStateM ε σ α) s = .ok a s := rfl
  rw [hpure, EStateM.Result.ok.injEq]

theorem after_bind_of_ok {m : EStateM ε σ α} {f : α → EStateM ε σ β} {s t : σ} {a : α}
    (h : m s = .ok a t) : after (m >>= f) s = after (f a) t := by
  rw [after, bind_of_ok h, after]

theorem after_bind_of_error {m : EStateM ε σ α} {f : α → EStateM ε σ β} {s t : σ} {e : ε}
    (h : m s = .error e t) : after (m >>= f) s = t :=
  after_of_error (bind_of_error h)

/-- The computation leaves every state as it is. -/
def Silent (m : EStateM ε σ α) : Prop := ∀ s, after m s = s

theorem silent_pure (a : α) : Silent (pure a : EStateM ε σ α) := fun _ ↦ rfl

theorem silent_lift (x : Except ε α) : Silent (liftM x : EStateM ε σ α) := by
  intro s
  cases x <;> rfl

/-- What comes second starts where the first part ends, or is left out. -/
theorem after_bind (m : EStateM ε σ α) (f : α → EStateM ε σ β) (s : σ) :
    after (m >>= f) s = after m s ∨ ∃ a, after (m >>= f) s = after (f a) (after m s) := by
  have hbind : (m >>= f) s = EStateM.bind m f s := rfl
  simp only [after, hbind, EStateM.bind]
  cases hm : m s with
  | ok a t => exact Or.inr ⟨a, rfl⟩
  | error e t => exact Or.inl rfl

theorem after_tryCatch (m : EStateM ε σ α) (handler : ε → EStateM ε σ α) (s : σ) :
    after (tryCatch m handler) s = after m s ∨
      ∃ e, after (tryCatch m handler) s = after (handler e) (after m s) := by
  have hcatch : (tryCatch m handler) s = EStateM.tryCatch m handler s := rfl
  simp only [after, hcatch, EStateM.tryCatch]
  cases hm : m s with
  | ok a t => exact Or.inl rfl
  | error e t => exact Or.inr ⟨e, rfl⟩

/-- Nothing happens in the first part, so what follows is all that happens. -/
theorem Silent.after_bind {m : EStateM ε σ α} {f : α → EStateM ε σ β} {s : σ} {reached : σ → Prop}
    (hm : Silent m) (hs : reached s) (hf : ∀ a, reached (after (f a) s)) :
    reached (after (m >>= f) s) := by
  rcases Effects.after_bind m f s with h | ⟨a, h⟩
  · rwa [h, hm]
  · rw [h, hm]
    exact hf a

theorem Silent.bind {m : EStateM ε σ α} {f : α → EStateM ε σ β} (hm : Silent m)
    (hf : ∀ a, Silent (f a)) : Silent (m >>= f) := by
  intro s
  exact @Silent.after_bind _ _ _ _ m f s (· = s) hm rfl fun a ↦ hf a s

theorem after_bind_silent (m : EStateM ε σ α) {f : α → EStateM ε σ β} (hf : ∀ a, Silent (f a))
    (s : σ) : after (m >>= f) s = after m s := by
  rcases after_bind m f s with h | ⟨a, h⟩
  · exact h
  · rw [h, hf]

theorem after_tryCatch_silent (m : EStateM ε σ α) {handler : ε → EStateM ε σ α}
    (hhandler : ∀ e, Silent (handler e)) (s : σ) :
    after (tryCatch m handler) s = after m s := by
  rcases after_tryCatch m handler s with h | ⟨e, h⟩
  · exact h
  · rw [h, hhandler]

/-! ## Loops that come to their end -/

section Loops

variable {contract : Contract σ} {s t : σ}

theorem Contract.Kept.of_ok {m : EStateM ε σ α} {a : α} (hm : contract.Kept m) (hs : contract.inv s)
    (h : m s = .ok a t) : contract.inv t ∧ contract.rel s t := by
  have hinv := hm.inv_after hs
  have hrel := hm.rel_after hs
  rw [after_of_ok h] at hinv hrel
  exact ⟨hinv, hrel⟩

/-- What follows on a part that keeps to the contract from one state. -/
theorem Contract.bind_at {m : EStateM ε σ α} {f : α → EStateM ε σ β}
    (hm : contract.inv (after m s) ∧ contract.rel s (after m s)) (hf : ∀ a, contract.Kept (f a)) :
    contract.inv (after (m >>= f) s) ∧ contract.rel s (after (m >>= f) s) := by
  cases hrun : m s with
  | error e t =>
      rw [after_of_error hrun] at hm
      rwa [after_of_error (bind_of_error hrun)]
  | ok a t =>
      rw [after_of_ok hrun] at hm
      have hafter : after (m >>= f) s = after (f a) t := by rw [after, bind_of_ok hrun, after]
      rw [hafter]
      exact ⟨(hf a).inv_after hm.1, contract.trans hm.2 ((hf a).rel_after hm.1)⟩

/-- A property that the relation carries on is kept beside the invariant. -/
theorem Contract.Kept.on {m : EStateM ε σ α} {settled : σ → Prop} (hm : contract.Kept m)
    (hkeeps : ∀ s t, contract.rel s t → settled s → settled t) :
    (contract.on fun s ↦ contract.inv s ∧ settled s).Kept m :=
  Contract.kept_of_after fun s hs ↦
    ⟨⟨hm.inv_after hs.1, hkeeps s _ (hm.rel_after hs.1) hs.2⟩, hm.rel_after hs.1⟩

/-- What follows may use what the first part has brought about. -/
theorem Contract.Kept.bind_settled {m : EStateM ε σ α} {f : α → EStateM ε σ β}
    (hm : contract.Kept m) (settled : σ → Prop)
    (hsettles : ∀ s a t, contract.inv s → m s = .ok a t → settled t)
    (hf : ∀ a, (contract.on fun s ↦ contract.inv s ∧ settled s).Kept (f a)) :
    contract.Kept (m >>= f) := by
  refine Contract.kept_of_after fun s hs ↦ ?_
  cases hrun : m s with
  | error e t =>
      have hafter : after (m >>= f) s = after m s :=
        (after_of_error (bind_of_error hrun)).trans (after_of_error hrun).symm
      rw [hafter]
      exact ⟨hm.inv_after hs, hm.rel_after hs⟩
  | ok a t =>
      obtain ⟨ht, hst⟩ := hm.of_ok hs hrun
      have hboth : contract.inv t ∧ settled t := ⟨ht, hsettles s a t hs hrun⟩
      have hafter : after (m >>= f) s = after (f a) t := by
        rw [after, bind_of_ok hrun, after]
      rw [hafter]
      exact ⟨((hf a).inv_after hboth).1, contract.trans hst ((hf a).rel_after hboth)⟩

/-- What each round brings about, and later ones keep, holds of all items in the end. -/
theorem Contract.foldlM_settles {f : β → α → EStateM ε σ β} {items : List α}
    {settled : α → σ → Prop} (hf : ∀ item ∈ items, ∀ b, contract.Kept (f b item))
    (hsettles : ∀ item ∈ items, ∀ b s, contract.inv s → ∀ b' t, f b item s = .ok b' t →
      settled item t)
    (hkeeps : ∀ item s t, contract.rel s t → settled item s → settled item t) {b b' : β}
    (hs : contract.inv s) (h : items.foldlM f b s = .ok b' t) : ∀ item ∈ items, settled item t := by
  induction items generalizing b s with
  | nil => exact fun item hitem ↦ absurd hitem List.not_mem_nil
  | cons item items ih =>
      rw [List.foldlM_cons] at h
      obtain ⟨next, u, hfirst, hrest⟩ := bind_eq_ok_iff.mp h
      obtain ⟨hu, -⟩ := (hf item List.mem_cons_self b).of_ok hs hfirst
      have hlater : contract.Kept (items.foldlM f next) :=
        obeyed_foldlM (q := fun _ ↦ True) (fun other hother b _ ↦
          hf other (List.mem_cons_of_mem item hother) b) trivial
      refine List.forall_mem_cons.mpr ⟨?_, ?_⟩
      · exact hkeeps item u t (hlater.of_ok hu hrest).2
          (hsettles item List.mem_cons_self b s hs next u hfirst)
      · exact ih (fun other hother ↦ hf other (List.mem_cons_of_mem item hother))
          (fun other hother ↦ hsettles other (List.mem_cons_of_mem item hother)) hu hrest

theorem forM_eq_foldlM (f : α → EStateM ε σ PUnit) (items : List α) :
    items.forM f = items.foldlM (fun _ item ↦ f item) ⟨⟩ := by
  induction items with
  | nil => rfl
  | cons item items ih =>
      rw [List.foldlM_cons]
      exact congrArg (f item >>= ·) (funext fun _ ↦ ih)

theorem Contract.forM_settles {f : α → EStateM ε σ PUnit} {items : List α} {settled : α → σ → Prop}
    (hf : ∀ item ∈ items, contract.Kept (f item))
    (hsettles : ∀ item ∈ items, ∀ s, contract.inv s → ∀ t, f item s = .ok ⟨⟩ t → settled item t)
    (hkeeps : ∀ item s t, contract.rel s t → settled item s → settled item t)
    (hs : contract.inv s) (h : items.forM f s = .ok ⟨⟩ t) : ∀ item ∈ items, settled item t := by
  rw [forM_eq_foldlM] at h
  exact contract.foldlM_settles (fun item hitem _ ↦ hf item hitem)
    (fun item hitem _ s hs _ t hrun ↦ hsettles item hitem s hs t hrun) hkeeps hs h

end Loops

/-! ## Whether a computation raises -/

/-- From every state the computation returns a value, which satisfies `p`. -/
def Returns (m : EStateM ε σ α) (p : α → Prop) : Prop := ∀ s, ∃ a t, m s = .ok a t ∧ p a

/-- From every state the computation raises. -/
def Raises (m : EStateM ε σ α) (p : ε → Prop) : Prop := ∀ s, ∃ e t, m s = .error e t ∧ p e

section Raising

variable {p : α → Prop} {q : β → Prop} {raised : ε → Prop}

theorem returns_pure {a : α} (h : p a) : Returns (pure a : EStateM ε σ α) p :=
  fun s ↦ ⟨a, s, rfl, h⟩

theorem returns_lift {x : Except ε α} {a : α} (hx : x = .ok a) (h : p a) :
    Returns (liftM x : EStateM ε σ α) p := by
  subst hx
  exact fun s ↦ ⟨a, s, rfl, h⟩

theorem raises_lift {x : Except ε α} {e : ε} (hx : x = .error e) (h : raised e) :
    Raises (liftM x : EStateM ε σ α) raised := by
  subst hx
  exact fun s ↦ ⟨e, s, rfl, h⟩

theorem Returns.mono {m : EStateM ε σ α} {weaker : α → Prop} (hm : Returns m p)
    (h : ∀ a, p a → weaker a) : Returns m weaker := by
  intro s
  obtain ⟨a, t, hrun, ha⟩ := hm s
  exact ⟨a, t, hrun, h a ha⟩

theorem Returns.bind {m : EStateM ε σ α} {f : α → EStateM ε σ β} (hm : Returns m p)
    (hf : ∀ a, p a → Returns (f a) q) : Returns (m >>= f) q := by
  intro s
  obtain ⟨a, t, hrun, ha⟩ := hm s
  obtain ⟨b, u, hrest, hb⟩ := hf a ha t
  refine ⟨b, u, ?_, hb⟩
  show EStateM.bind m f s = .ok b u
  rw [EStateM.bind, hrun]
  exact hrest

theorem Returns.bind_raises {m : EStateM ε σ α} {f : α → EStateM ε σ β} (hm : Returns m p)
    (hf : ∀ a, p a → Raises (f a) raised) : Raises (m >>= f) raised := by
  intro s
  obtain ⟨a, t, hrun, ha⟩ := hm s
  obtain ⟨e, u, hrest, he⟩ := hf a ha t
  refine ⟨e, u, ?_, he⟩
  show EStateM.bind m f s = .error e u
  rw [EStateM.bind, hrun]
  exact hrest

theorem Raises.bind {m : EStateM ε σ α} (hm : Raises m raised) (f : α → EStateM ε σ β) :
    Raises (m >>= f) raised := by
  intro s
  obtain ⟨e, t, hrun, he⟩ := hm s
  refine ⟨e, t, ?_, he⟩
  show EStateM.bind m f s = .error e t
  rw [EStateM.bind, hrun]

theorem Returns.uncaught {m : EStateM ε σ α} (hm : Returns m p)
    (handler : ε → EStateM ε σ α) : Returns (tryCatch m handler) p := by
  intro s
  obtain ⟨a, t, hrun, ha⟩ := hm s
  refine ⟨a, t, ?_, ha⟩
  show EStateM.tryCatch m handler s = .ok a t
  rw [EStateM.tryCatch, hrun]

theorem tryCatch_of_ok {m : EStateM ε σ α} {handler : ε → EStateM ε σ α} {s t : σ} {a : α}
    (h : m s = .ok a t) : tryCatch m handler s = .ok a t := by
  show EStateM.tryCatch m handler s = .ok a t
  rw [EStateM.tryCatch, h]

theorem tryCatch_of_error {m : EStateM ε σ α} {handler : ε → EStateM ε σ α} {s t : σ} {e : ε}
    (h : m s = .error e t) : tryCatch m handler s = handler e t := by
  show EStateM.tryCatch m handler s = handler e t
  rw [EStateM.tryCatch, h]
  rfl

theorem tryCatch_eq_ok_iff {m : EStateM ε σ α} {handler : ε → EStateM ε σ α} {s t : σ} {a : α} :
    tryCatch m handler s = .ok a t ↔
      m s = .ok a t ∨ ∃ e u, m s = .error e u ∧ handler e u = .ok a t := by
  cases h : m s with
  | ok b u =>
      rw [tryCatch_of_ok h]
      simp
  | error e u =>
      rw [tryCatch_of_error h]
      simp

theorem Raises.caught {m : EStateM ε σ α} {handler : ε → EStateM ε σ α}
    (hm : Raises m raised) (hhandler : ∀ e, raised e → Returns (handler e) p) :
    Returns (tryCatch m handler) p := by
  intro s
  obtain ⟨e, t, hrun, he⟩ := hm s
  rw [tryCatch_of_error hrun]
  exact hhandler e he t

theorem Raises.caught_raises {m : EStateM ε σ α} {handler : ε → EStateM ε σ α}
    {again : ε → Prop} (hm : Raises m raised)
    (hhandler : ∀ e, raised e → Raises (handler e) again) :
    Raises (tryCatch m handler) again := by
  intro s
  obtain ⟨e, t, hrun, he⟩ := hm s
  rw [tryCatch_of_error hrun]
  exact hhandler e he t

/-- With a handler that never raises, it is enough to know what is returned if something is. -/
theorem returns_tryCatch {m : EStateM ε σ α} {handler : ε → EStateM ε σ α}
    (hm : (Contract.any σ).Obeyed m p) (hhandler : ∀ e, Returns (handler e) p) :
    Returns (tryCatch m handler) p := by
  intro s
  have hfirst := hm s trivial
  cases hrun : m s with
  | error e t =>
      rw [tryCatch_of_error hrun]
      exact hhandler e t
  | ok a t =>
      rw [hrun] at hfirst
      refine ⟨a, t, ?_, hfirst.2.2⟩
      show EStateM.tryCatch m handler s = .ok a t
      rw [EStateM.tryCatch, hrun]

end Raising

end Effects
