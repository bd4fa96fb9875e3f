import CanvasFlutter.Proofs.Dart.Token

namespace CanvasFlutter.Dart

/-!
# `CanvasFlutter.Proofs.Dart.Place` — tokens and what stands around them

## Contents
- **Places.** `AtEach` says of every token of a row what its neighbours allow; `Stable` conditions
  are not spoilt by what stands around the row.
- **Rows.** `AtEach.append`, `AtEach.cons`, `atEach_flatMap`.
-/

/-! ## Places -/

/-- What holds at every token, given the tokens before and after it. -/
def AtEach (R : List Token → Token → List Token → Prop) (ts : List Token) : Prop :=
  ∀ before t after, ts = before ++ t :: after → R before t after

/-- A condition that holds on when more stands around. -/
def Stable (R : List Token → Token → List Token → Prop) : Prop :=
  ∀ before t after, R before t after → ∀ left right, R (left ++ before) t (after ++ right)

variable {R : List Token → Token → List Token → Prop} {ts us : List Token}

/-! ## Rows -/

theorem atEach_nil : AtEach R [] := fun _ _ _ heq => by simp at heq

theorem AtEach.append (hR : Stable R) (hs : AtEach R ts) (ht : AtEach R us) :
    AtEach R (ts ++ us) := by
  intro before t after heq
  rcases List.append_eq_append_iff.mp heq with ⟨mid, rfl, hright⟩ | ⟨mid, rfl, hleft⟩
  · simpa using hR _ _ _ (ht mid t after hright) ts []
  · cases mid with
    | nil => simpa using hR _ _ _ (ht [] t after hleft.symm) before []
    | cons first mid =>
        obtain ⟨rfl, rfl⟩ := List.cons.inj hleft
        simpa using hR _ _ _ (hs before t mid rfl) [] us

theorem AtEach.cons (hR : Stable R) (hs : AtEach R ts) {t : Token} (ht : R [] t ts) :
    AtEach R (t :: ts) := by
  intro before u after heq
  cases before with
  | nil =>
      obtain ⟨rfl, rfl⟩ := List.cons.inj heq
      exact ht
  | cons first before =>
      obtain ⟨rfl, rfl⟩ := List.cons.inj heq
      simpa using hR _ _ _ (hs before u after rfl) [t] []

theorem atEach_flatMap {α : Type} (hR : Stable R) {items : List α} {f : α → List Token}
    (h : ∀ a ∈ items, AtEach R (f a)) : AtEach R (items.flatMap f) := by
  induction items with
  | nil => exact atEach_nil
  | cons a items ih => exact .append hR (h a (by simp)) (ih fun b hb => h b (by simp [hb]))

theorem AtEach.imp {R' : List Token → Token → List Token → Prop} (h : AtEach R ts)
    (himp : ∀ before t after, R before t after → R' before t after) : AtEach R' ts :=
  fun before t after heq => himp before t after (h before t after heq)

/-- What holds of tokens wherever they stand. -/
theorem atEach_of_forall (h : ∀ t ∈ ts, ∀ before after, R before t after) : AtEach R ts :=
  fun before t after heq => h t (by simp [heq]) before after

end CanvasFlutter.Dart
