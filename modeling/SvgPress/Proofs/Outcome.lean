import Mathlib.Data.List.Forall2
import Mathlib.Tactic.Common

/-!
# Outcomes

How a success of composed work comes about: every part of it has succeeded. Work on a list fails at
the first part that fails.
-/

namespace SvgPress.Outcome

variable {ε ε' α β γ : Type}

/-- Work in two parts succeeds if both parts do. -/
theorem bind_eq_ok_iff {x : Except ε α} {f : α → Except ε β} {b : β} :
    (x >>= f) = .ok b ↔ ∃ a, x = .ok a ∧ f a = .ok b := by
  cases x with
  | error e => simp [bind, Except.bind]
  | ok a => simp [bind, Except.bind]

theorem pure_eq_ok_iff {a b : α} : (pure a : Except ε α) = .ok b ↔ b = a := by
  simp [pure, Except.pure, eq_comm]

theorem map_eq_ok_iff {x : Except ε α} {f : α → β} {b : β} :
    x.map f = .ok b ↔ ∃ a, x = .ok a ∧ f a = b := by
  cases x <;> simp [Except.map]

theorem mapError_eq_ok_iff {x : Except ε α} {f : ε → ε'} {a : α} :
    x.mapError f = .ok a ↔ x = .ok a := by
  cases x <;> simp [Except.mapError]

/-- A success is computed with failures forgotten. -/
theorem eq_ok_of_toOption {x : Except ε α} {a : α} (h : x.toOption = some a) : x = .ok a := by
  cases x with
  | error e => exact absurd h (by simp [Except.toOption])
  | ok b => exact congrArg Except.ok (Option.some.inj h)

/-- What can be computed of a result holds of it. -/
theorem of_all_toOption {x : Except ε α} {p : α → Prop} [DecidablePred p] {a : α}
    (h : x.toOption.all (fun a => decide (p a)) = true) (hx : x = .ok a) : p a := by
  rw [hx] at h
  exact of_decide_eq_true h

/-- Work on a list succeeds if it does for each entry. -/
theorem mapM_eq_ok_iff {f : α → Except ε β} {as : List α} {bs : List β} :
    as.mapM f = .ok bs ↔ List.Forall₂ (fun a b => f a = .ok b) as bs := by
  induction as generalizing bs with
  | nil => simp [pure, Except.pure, eq_comm]
  | cons a as ih =>
    rw [List.mapM_cons, bind_eq_ok_iff]
    constructor
    · rintro ⟨b, hb, h⟩
      obtain ⟨rest, hrest, h⟩ := bind_eq_ok_iff.1 h
      obtain rfl := Except.ok.inj h
      exact .cons hb (ih.1 hrest)
    · intro h
      obtain ⟨b, rest, hb, hrest, rfl⟩ := List.forall₂_cons_left_iff.1 h
      exact ⟨b, hb, bind_eq_ok_iff.2 ⟨rest, ih.2 hrest, rfl⟩⟩

theorem exists_of_mem_forall₂ {R : α → β → Prop} {as : List α} {bs : List β} {b : β}
    (h : List.Forall₂ R as bs) (hb : b ∈ bs) : ∃ a ∈ as, R a b := by
  induction h with
  | nil => exact absurd hb List.not_mem_nil
  | @cons a b' as bs ha _ ih =>
    rcases List.mem_cons.1 hb with rfl | hb
    · exact ⟨a, List.mem_cons_self, ha⟩
    · obtain ⟨a', hm, ha'⟩ := ih hb
      exact ⟨a', List.mem_cons_of_mem _ hm, ha'⟩

theorem exists_of_mem_mapM {f : α → Except ε β} {as : List α} {bs : List β} {b : β}
    (h : as.mapM f = .ok bs) (hb : b ∈ bs) : ∃ a ∈ as, f a = .ok b :=
  exists_of_mem_forall₂ (R := fun a b => f a = .ok b) (mapM_eq_ok_iff.1 h) hb

/-- A selection from one of two lists selects from the other one. -/
theorem exists_sublist_of_forall₂ {R : α → β → Prop} {as : List α} {bs bs' : List β}
    (h : List.Forall₂ R as bs) (hs : bs'.Sublist bs) :
    ∃ as', as'.Sublist as ∧ List.Forall₂ R as' bs' := by
  induction hs generalizing as with
  | slnil => exact ⟨[], List.nil_sublist _, .nil⟩
  | cons b _ ih =>
    cases h with
    | cons _ hrest =>
      obtain ⟨as', hsub, has⟩ := ih hrest
      exact ⟨as', hsub.cons _, has⟩
  | cons_cons b _ ih =>
    cases h with
    | cons hab hrest =>
      obtain ⟨as', hsub, has⟩ := ih hrest
      exact ⟨_ :: as', hsub.cons_cons _, .cons hab has⟩

/-- Relations to a list can be told of a list that is related to it entry by entry. -/
theorem forall₂_congr_left {R : α → β → Prop} {S : β → γ → Prop} {T : α → γ → Prop} {as : List α}
    {bs : List β} {cs : List γ} (h : List.Forall₂ R as bs)
    (hagree : ∀ a b c, R a b → (S b c ↔ T a c)) :
    List.Forall₂ S bs cs ↔ List.Forall₂ T as cs := by
  induction h generalizing cs with
  | nil => rw [List.forall₂_nil_left_iff, List.forall₂_nil_left_iff]
  | @cons a b as bs hab _ ih =>
    cases cs with
    | nil => exact ⟨nofun, nofun⟩
    | cons c cs => rw [List.forall₂_cons, List.forall₂_cons, hagree a b c hab, ih]

theorem exists_forall₂_iff {R : α → β → Prop} {as : List α} :
    (∃ bs, List.Forall₂ R as bs) ↔ ∀ a ∈ as, ∃ b, R a b := by
  induction as with
  | nil => exact ⟨fun _ => nofun, fun _ => ⟨[], .nil⟩⟩
  | cons a as ih =>
    rw [List.forall_mem_cons, ← ih]
    constructor
    · rintro ⟨bs, hbs⟩
      cases hbs with
      | cons hab hrest => exact ⟨⟨_, hab⟩, _, hrest⟩
    · rintro ⟨⟨b, hab⟩, bs, hrest⟩
      exact ⟨b :: bs, .cons hab hrest⟩

/-! ## First faults -/

variable {fine faulty : α → Prop} {fine' faulty' : β → Prop}

/-- In a list, what comes before the first thing at fault is fine. -/
inductive FirstFault (fine faulty : α → Prop) : List α → Prop where
  | here {a : α} {as : List α} : faulty a → FirstFault fine faulty (a :: as)
  | later {a : α} {as : List α} : fine a → FirstFault fine faulty as →
      FirstFault fine faulty (a :: as)

theorem FirstFault.exists_mem {as : List α} (h : FirstFault fine faulty as) :
    ∃ a ∈ as, faulty a := by
  induction h with
  | here ha => exact ⟨_, List.mem_cons_self, ha⟩
  | later _ _ ih =>
    obtain ⟨a, hm, ha⟩ := ih
    exact ⟨a, List.mem_cons_of_mem _ hm, ha⟩

theorem FirstFault.imp {faulty' : α → Prop} {as : List α} (h : FirstFault fine faulty as)
    (himp : ∀ a, faulty a → faulty' a) : FirstFault fine faulty' as := by
  induction h with
  | here ha => exact .here (himp _ ha)
  | later ha _ ih => exact .later ha ih

/-- Work on a list fails as it does for the first entry that is at fault. -/
theorem mapM_eq_error_iff {f : α → Except ε β} {as : List α} {e : ε} :
    as.mapM f = .error e ↔ FirstFault (∃ b, f · = .ok b) (f · = .error e) as := by
  induction as with
  | nil => exact ⟨nofun, nofun⟩
  | cons a as ih =>
    rw [List.mapM_cons]
    constructor
    · intro h
      cases ha : f a with
      | error e' =>
        rw [ha] at h
        obtain rfl := Except.error.inj h
        exact .here ha
      | ok b =>
        refine .later ⟨b, ha⟩ (ih.1 ?_)
        rw [ha] at h
        cases hrest : as.mapM f with
        | error e' => rw [hrest] at h; exact h
        | ok bs => rw [hrest] at h; exact absurd h (by simp [bind, Except.bind, pure, Except.pure])
    · intro h
      cases h with
      | here ha => rw [ha]; rfl
      | later ha hrest =>
        obtain ⟨b, hb⟩ := ha
        rw [hb, ih.2 hrest]
        rfl

/-- Where two lists agree on what is fine and what is at fault, so do their first faults. -/
theorem firstFault_congr {R : α → β → Prop} {as : List α} {bs : List β}
    (h : List.Forall₂ R as bs) (hfine : ∀ a b, R a b → (fine a ↔ fine' b))
    (hfaulty : ∀ a b, R a b → (faulty a ↔ faulty' b)) :
    FirstFault fine faulty as ↔ FirstFault fine' faulty' bs := by
  induction h with
  | nil => exact ⟨nofun, nofun⟩
  | @cons a b as bs hab _ ih =>
    constructor
    · intro h
      cases h with
      | here ha => exact .here ((hfaulty a b hab).1 ha)
      | later ha hrest => exact .later ((hfine a b hab).1 ha) (ih.1 hrest)
    · intro h
      cases h with
      | here hb => exact .here ((hfaulty a b hab).2 hb)
      | later hb hrest => exact .later ((hfine a b hab).2 hb) (ih.2 hrest)

end SvgPress.Outcome
