import Mathlib.Data.List.Forall2

/-!
# Two lanes

What is given to a sender goes out in one of two lanes. In each lane things keep their order, in the fast one they do
not wait, and in either some may be lost. `InLanes Carries fast out given` says that `out` can come from `given` so: with
the two lanes merged in some order, each element of `out` carries one of `given`, none twice, and in the order in which
they were given. The newest element is the first of its list.
-/

set_option autoImplicit false

namespace MiniIp.Library.Lanes

variable {α β : Type} {Carries : α → β → Prop} {fast : α → Bool}
  {out out' waiting l A B : List α} {given given' : List β} {a : α} {b : β}

/-- The lists have the same elements in each lane, in the same order. -/
def SameLanes (fast : α → Bool) (l l' : List α) : Prop :=
  l.filter fast = l'.filter fast ∧ l.filter (fun x => !fast x) = l'.filter (fun x => !fast x)

def InLanes (Carries : α → β → Prop) (fast : α → Bool) (out : List α) (given : List β) : Prop :=
  ∃ merged, SameLanes fast merged out ∧ List.SublistForall₂ Carries merged given

/-- A list loses elements in each lane. -/
theorem exists_sublist (hfast : A.Sublist (l.filter fast)) (hslow : B.Sublist (l.filter fun x => !fast x)) :
    ∃ l' : List α, l'.Sublist l ∧ l'.filter fast = A ∧ l'.filter (fun x => !fast x) = B := by
  induction l generalizing A B with
  | nil =>
    rw [List.filter_nil, List.sublist_nil] at hfast hslow
    subst hfast hslow
    exact ⟨[], .slnil, rfl, rfl⟩
  | cons x rest ih =>
    cases hx : fast x with
    | true =>
      rw [List.filter_cons_of_pos hx] at hfast
      rw [List.filter_cons_of_neg (by simp [hx])] at hslow
      cases hfast with
      | cons _ hlost =>
        obtain ⟨l', hl, hA, hB⟩ := ih hlost hslow
        exact ⟨l', hl.cons x, hA, hB⟩
      | cons_cons _ hkept =>
        obtain ⟨l', hl, hA, hB⟩ := ih hkept hslow
        refine ⟨x :: l', hl.cons_cons x, ?_, ?_⟩
        · rw [List.filter_cons_of_pos hx, hA]
        · rw [List.filter_cons_of_neg (by simp [hx]), hB]
    | false =>
      rw [List.filter_cons_of_neg (by simp [hx])] at hfast
      rw [List.filter_cons_of_pos (by simp [hx])] at hslow
      cases hslow with
      | cons _ hlost =>
        obtain ⟨l', hl, hA, hB⟩ := ih hfast hlost
        exact ⟨l', hl.cons x, hA, hB⟩
      | cons_cons _ hkept =>
        obtain ⟨l', hl, hA, hB⟩ := ih hfast hkept
        refine ⟨x :: l', hl.cons_cons x, ?_, ?_⟩
        · rw [List.filter_cons_of_neg (by simp [hx]), hA]
        · rw [List.filter_cons_of_pos (by simp [hx]), hB]

theorem sublistForall₂_lost (h : List.SublistForall₂ Carries l given) (hsub : out.Sublist l) :
    List.SublistForall₂ Carries out given := by
  induction h generalizing out with
  | nil =>
    rw [List.sublist_nil.mp hsub]
    exact .nil
  | cons hcarries _ ih =>
    cases hsub with
    | cons _ hlost => exact .cons_right (ih hlost)
    | cons_cons _ hkept => exact .cons hcarries (ih hkept)
  | cons_right _ ih => exact .cons_right (ih hsub)

theorem sublistForall₂_later (h : List.SublistForall₂ Carries l given) (hgiven : given <:+ given') :
    List.SublistForall₂ Carries l given' := by
  obtain ⟨new, rfl⟩ := hgiven
  induction new with
  | nil => exact h
  | cons b new ih => exact .cons_right ih

namespace InLanes

theorem nil (given : List β) : InLanes Carries fast [] given := ⟨[], ⟨rfl, rfl⟩, .nil⟩

/-- More is given than goes out. -/
theorem later (h : InLanes Carries fast out given) (hgiven : given <:+ given') : InLanes Carries fast out given' := by
  obtain ⟨merged, hsame, hcarry⟩ := h
  exact ⟨merged, hsame, sublistForall₂_later hcarry hgiven⟩

/-- Something is lost. -/
theorem lost (h : InLanes Carries fast out given) (hsub : out'.Sublist out) : InLanes Carries fast out' given := by
  obtain ⟨merged, ⟨hfast, hslow⟩, hcarry⟩ := h
  have hfast' : (out'.filter fast).Sublist (merged.filter fast) := by
    rw [hfast]
    exact hsub.filter _
  have hslow' : (out'.filter fun x => !fast x).Sublist (merged.filter fun x => !fast x) := by
    rw [hslow]
    exact hsub.filter _
  obtain ⟨merged', hmerged, hA, hB⟩ := exists_sublist hfast' hslow'
  exact ⟨merged', ⟨hA, hB⟩, sublistForall₂_lost hcarry hmerged⟩

/-- What is given goes out, past what waits: in the slow lane nothing may wait. -/
theorem pass (h : InLanes Carries fast (waiting ++ out) given) (hcarries : Carries a b)
    (hslow : ∀ x ∈ waiting, fast x = false) (hlane : fast a = true ∨ waiting = []) :
    InLanes Carries fast (waiting ++ a :: out) (b :: given) := by
  obtain ⟨merged, ⟨hfast, hrest⟩, hcarry⟩ := h
  refine ⟨a :: merged, ?_, .cons hcarries hcarry⟩
  rcases hlane with ha | rfl
  · have hnone : waiting.filter fast = [] := List.filter_eq_nil_iff.mpr fun x hx => by simp [hslow x hx]
    constructor
    · rw [List.filter_append, hnone, List.nil_append] at hfast ⊢
      rw [List.filter_cons_of_pos ha, List.filter_cons_of_pos ha, hfast]
    · rw [List.filter_append] at hrest ⊢
      rw [List.filter_cons_of_neg (by simp [ha]), List.filter_cons_of_neg (by simp [ha]), hrest]
  · rw [List.nil_append] at hfast hrest ⊢
    constructor
    · rw [List.filter_cons, List.filter_cons, hfast]
    · rw [List.filter_cons, List.filter_cons, hrest]

theorem push (h : InLanes Carries fast out given) (hcarries : Carries a b) :
    InLanes Carries fast (a :: out) (b :: given) :=
  h.pass  hcarries (by simp) (.inr rfl)

end InLanes

end MiniIp.Library.Lanes
