import SvgPress.Proofs.Tree.Forest

/-!
# Cutting trees out of a forest

Trees are cut out at nodes that are gone. What remains of a forest, and the order in which its nodes
are met, are said by recursion on it.
-/

namespace SvgPress

namespace Forest

variable {α β : Type}

/-- The nodes of a forest, each after the nodes below it. -/
def postorder : Forest α → List α
  | nil => []
  | cons top below rest => below.postorder ++ top :: rest.postorder

/-- The forest without the trees whose top is gone. -/
def prune (gone : α → Bool) : Forest α → Forest α
  | nil => nil
  | cons top below rest =>
    if gone top then rest.prune gone else cons top (below.prune gone) (rest.prune gone)

/-- The forest without what stands below a node that is gone. -/
def outer (gone : α → Bool) : Forest α → Forest α
  | nil => nil
  | cons top below rest => cons top (if gone top then nil else below.outer gone) (rest.outer gone)

variable {gone gone' : α → Bool}

theorem mem_postorder {x : α} {f : Forest α} : x ∈ f.postorder ↔ x ∈ f.preorder := by
  induction f with
  | nil => exact Iff.rfl
  | cons top below rest ihb ihr =>
    simp only [postorder, preorder, List.mem_append, List.mem_cons, ihb, ihr]
    tauto

theorem tops_subset_preorder (f : Forest α) : f.tops ⊆ f.preorder := by
  induction f with
  | nil => exact List.Subset.refl _
  | cons top below rest _ ih =>
    intro x hx
    rcases List.mem_cons.1 hx with rfl | hx
    · exact List.mem_cons_self
    · exact List.mem_cons_of_mem _ (List.mem_append_right _ (ih hx))

theorem tops_prune (gone : α → Bool) (f : Forest α) :
    (f.prune gone).tops = f.tops.filter (!gone ·) := by
  induction f with
  | nil => rfl
  | cons top below rest _ ih =>
    rw [prune, tops, List.filter_cons]
    cases gone top with
    | true => simpa using ih
    | false => simpa [tops] using ih

theorem outer_congr {f : Forest α} (h : ∀ x ∈ f.preorder, gone x = gone' x) :
    f.outer gone = f.outer gone' := by
  induction f with
  | nil => rfl
  | cons top below rest ihb ihr =>
    simp only [preorder, List.mem_cons, List.mem_append] at h
    rw [outer, outer, h top (.inl rfl), ihb fun x hx => h x (.inr (.inl hx)),
      ihr fun x hx => h x (.inr (.inr hx))]

theorem mem_outer {x : α} {f : Forest α} (h : x ∈ (f.outer gone).preorder) : x ∈ f.preorder := by
  induction f with
  | nil => exact h
  | cons top below rest ihb ihr =>
    simp only [outer, preorder, List.mem_cons, List.mem_append] at h ⊢
    rcases h with rfl | h | h
    · exact .inl rfl
    · split_ifs at h
      · exact absurd h List.not_mem_nil
      · exact .inr (.inl (ihb h))
    · exact .inr (.inr (ihr h))

end Forest

namespace Document

/-- Where children that are gone have been taken from all lists, what is left of a forest is
shown. -/
theorem Shows.prune {d d' : Document} {f : Forest NodeId} {gone : NodeId → Bool} (h : d.Shows f)
    (hc : ∀ x, d'.children x = (d.children x).filter (!gone ·)) : d'.Shows (f.prune gone) := by
  induction f with
  | nil => trivial
  | cons top below rest ihb ihr =>
    obtain ⟨htop, hbelow, hrest⟩ := h
    rw [Forest.prune]
    split_ifs
    · exact ihr hrest
    · refine ⟨?_, ihb hbelow, ihr hrest⟩
      rw [hc, htop, Forest.tops_prune]

/-- What is left of a forest has the child lists without the children that are gone. -/
theorem Shows.children_prune {d d' : Document} {f : Forest NodeId} {gone : NodeId → Bool}
    (h : d.Shows f) (h' : d'.Shows (f.prune gone)) :
    ∀ x ∈ (f.prune gone).preorder, d'.children x = (d.children x).filter (!gone ·) := by
  induction f with
  | nil => exact fun x hx => absurd hx List.not_mem_nil
  | cons top below rest ihb ihr =>
    obtain ⟨htop, hbelow, hrest⟩ := h
    rw [Forest.prune] at h' ⊢
    split_ifs at h' ⊢
    · exact ihr hrest h'
    · obtain ⟨htop', hbelow', hrest'⟩ := h'
      simp only [Forest.preorder, List.mem_cons, List.mem_append]
      rintro x (rfl | hx | hx)
      · rw [htop', Forest.tops_prune, htop]
      · exact ihb hbelow hbelow' x hx
      · exact ihr hrest hrest' x hx

end Document

end SvgPress
