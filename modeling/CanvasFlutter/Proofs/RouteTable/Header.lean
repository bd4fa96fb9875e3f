import CanvasFlutter.Proofs.RouteTable.Braces
import CanvasFlutter.RouteTable.Document

namespace CanvasFlutter.Pattern

/-!
# `CanvasFlutter.Proofs.RouteTable.Header` — a header reads up to its brace and no further

No part of a table's header reads past an opening brace, so where the table is found depends only on
the text in front of it, and what stands between its braces may be replaced.

## Contents
- **Parts.** `BeforeBrace` and how it passes through the parts of the pattern.
- **Headers.** `ToBrace`: a header ends with the first brace after its start, and does not depend
  on what follows that; `toBrace_tableHeader?`.
- **Search.** `findTable?_eq_some`; `findFrom?_local`: nor does the search.
- **Table.** `RouteDocument.tableParts?` cuts a text at the braces of its table;
  `tableParts?_refill`: the same braces are found after other neutral text is put between them.
-/

/-! ## Parts -/

/-- A part that leaves an opening brace where it is, and does not look at what follows it. -/
structure BeforeBrace (p : Part) : Prop where
  stops : ∀ u, ∃ r : Option Text, (∀ v, r = some v → v <:+ u) ∧
    ∀ y, p (u ++ '{' :: y) = r.map (· ++ '{' :: y)
  suffix : ∀ t r, p t = some r → r <:+ t

theorem dropWhile_append_brace {p : Char → Bool} (hp : p '{' = false) (u y : Text) :
    (u ++ '{' :: y).dropWhile p = u.dropWhile p ++ '{' :: y := by
  rw [List.dropWhile_append]
  split <;> simp_all

theorem BeforeBrace.congr {p q : Part} (hp : BeforeBrace p) (h : ∀ t, q t = p t) :
    BeforeBrace q := by
  rwa [funext h]

theorem BeforeBrace.bind {p q : Part} (hp : BeforeBrace p) (hq : BeforeBrace q) :
    BeforeBrace fun t => p t >>= q where
  stops u := by
    obtain ⟨r, hr, hpu⟩ := hp.stops u
    cases r with
    | none => exact ⟨none, by simp, fun y => by simp [hpu y]⟩
    | some v =>
        obtain ⟨r', hr', hqv⟩ := hq.stops v
        exact ⟨r', fun w hw => (hr' w hw).trans (hr v rfl), fun y => by simp [hpu y, hqv y]⟩
  suffix t r h := by
    obtain ⟨s, hs, hr⟩ := Option.bind_eq_some_iff.mp h
    exact (hq.suffix s r hr).trans (hp.suffix t s hs)

/-- A part that always succeeds. -/
theorem BeforeBrace.map {f : Text → Text} {p : Part} (hf : BeforeBrace fun t => some (f t))
    (hp : BeforeBrace p) : BeforeBrace fun t => p (f t) := hf.bind hp

/-- Where a part fails, the text stays. -/
theorem BeforeBrace.getD {p : Part} (hp : BeforeBrace p) :
    BeforeBrace fun t => some ((p t).getD t) where
  stops u := by
    obtain ⟨r, hr, hpu⟩ := hp.stops u
    refine ⟨some (r.getD u), ?_, fun y => ?_⟩
    · rintro v ⟨⟩
      cases r with
      | none => exact List.suffix_refl u
      | some v => exact hr v rfl
    · cases r <;> simp [hpu y]
  suffix t r h := by
    obtain rfl := Option.some.inj h
    cases hpt : p t with
    | none => exact List.suffix_refl t
    | some r => exact hp.suffix t r hpt

theorem beforeBrace_dropWhile {p : Char → Bool} (hp : p '{' = false) :
    BeforeBrace fun t => some (t.dropWhile p) where
  stops u := ⟨some (u.dropWhile p), by rintro v ⟨⟩; exact List.dropWhile_suffix p,
    fun y => by simp [dropWhile_append_brace hp]⟩
  suffix t r h := by
    obtain rfl := Option.some.inj h
    exact List.dropWhile_suffix p

theorem beforeBrace_blanks : BeforeBrace fun t => some (blanks t) :=
  beforeBrace_dropWhile (by decide)

/-- One character of a class. -/
def one? (p : Char → Bool) : Part
  | [] => none
  | c :: rest => if p c then some rest else none

theorem beforeBrace_one? {p : Char → Bool} (hp : p '{' = false) : BeforeBrace (one? p) where
  stops u := by
    cases u with
    | nil => exact ⟨none, by simp, fun y => by simp [one?, hp]⟩
    | cons c u =>
        by_cases hc : p c = true
        · exact ⟨some u, by rintro v ⟨⟩; exact List.suffix_cons c u, fun y => by simp [one?, hc]⟩
        · exact ⟨none, by simp, fun y => by simp [one?, hc]⟩
  suffix t r h := by
    cases t with
    | nil => simp [one?] at h
    | cons c t =>
        simp only [one?] at h
        split at h
        · obtain rfl := Option.some.inj h
          exact List.suffix_cons c t
        · simp at h

theorem blanks?_eq (t : Text) : blanks? t = one? Text.isWhite t >>= fun t => some (blanks t) := by
  cases t with
  | nil => rfl
  | cons c t => by_cases hc : Text.isWhite c = true <;> simp [blanks?, one?, hc]

theorem word?_eq (t : Text) :
    word? t = one? Text.isWord t >>= fun t => some (t.dropWhile Text.isWord) := by
  cases t with
  | nil => rfl
  | cons c t => by_cases hc : Text.isWord c = true <;> simp [word?, one?, hc]

theorem after?_cons (c : Char) (s t : Text) :
    Text.after? (c :: s) t = one? (· == c) t >>= Text.after? s := by
  cases t with
  | nil => rfl
  | cons d t =>
      by_cases hd : d = c
      · simp [Text.after?, one?, hd]
      · have : ¬ c = d := fun h => hd h.symm
        simp [Text.after?, one?, hd, this]

theorem beforeBrace_after? {s : Text} (hs : '{' ∉ s) : BeforeBrace (Text.after? s) := by
  induction s with
  | nil => exact ⟨fun u => ⟨some u, by rintro v ⟨⟩; exact List.suffix_refl u, fun y => rfl⟩,
      fun t r h => by obtain rfl := Option.some.inj h; exact List.suffix_refl t⟩
  | cons c s ih =>
      simp only [List.mem_cons, not_or] at hs
      have h := (beforeBrace_one? (p := (· == c)) (by simpa using hs.1)).bind (ih hs.2)
      exact h.congr (after?_cons c s)

theorem beforeBrace_blanks? : BeforeBrace blanks? := by
  have h := (beforeBrace_one? (p := Text.isWhite) (by decide)).bind beforeBrace_blanks
  exact h.congr blanks?_eq

theorem beforeBrace_word? : BeforeBrace word? := by
  have h := (beforeBrace_one? (p := Text.isWord) (by decide)).bind
    (beforeBrace_dropWhile (p := Text.isWord) (by decide))
  exact h.congr word?_eq

theorem beforeBrace_inOrder? {ss : List String} (h : ∀ s ∈ ss, '{' ∉ s.toList) :
    BeforeBrace (inOrder? ss) := by
  induction ss with
  | nil => exact beforeBrace_after? (s := []) (by simp)
  | cons s ss ih =>
      have hs := beforeBrace_after? (h s (by simp))
      exact hs.bind (beforeBrace_blanks.map (ih fun s' hs' => h s' (by simp [hs'])))

theorem beforeBrace_optionalConst : BeforeBrace fun t => some (optionalConst t) := by
  have h := ((beforeBrace_after? (s := "const".toList) (by decide)).bind beforeBrace_blanks?).getD
  refine h.congr fun t => ?_
  rw [optionalConst]
  cases Text.after? "const".toList t <;> rfl

theorem beforeBrace_types? : BeforeBrace types? :=
  beforeBrace_inOrder? (by decide)

theorem beforeBrace_optionalTypes : BeforeBrace fun t => some (optionalTypes t) :=
  beforeBrace_types?.getD

/-! ## Headers -/

/-- A part that ends with the first opening brace, and does not look at what follows it. -/
structure ToBrace (p : Part) : Prop where
  stops : ∀ u, ∃ r : Option Text, ∀ y, p (u ++ '{' :: y) = r.map (· ++ y)
  first : ∀ t r, p t = some r → ∃ u, '{' ∉ u ∧ t = u ++ '{' :: r

theorem toBrace_brace : ToBrace (Text.after? ['{']) where
  stops u := by
    cases u with
    | nil => exact ⟨some [], fun y => by simp [Text.after?]⟩
    | cons c u =>
        by_cases hc : c = '{'
        · exact ⟨some (u ++ ['{']), fun y => by simp [Text.after?, hc]⟩
        · have : ¬ '{' = c := fun h => hc h.symm
          exact ⟨none, fun y => by simp [Text.after?, this]⟩
  first t r h := by
    rw [after?_cons] at h
    obtain ⟨s, hs, hr⟩ := Option.bind_eq_some_iff.mp h
    obtain rfl := Option.some.inj hr
    cases t with
    | nil => simp [one?] at hs
    | cons c t =>
        simp only [one?, beq_iff_eq] at hs
        split at hs
        · next hc => exact ⟨[], by simp, by simpa [hc] using hs⟩
        · simp at hs

/-- Before the first of two braces stands the same text. -/
theorem eq_of_append_brace {u v y z : Text} (hu : '{' ∉ u) (hv : '{' ∉ v)
    (h : u ++ '{' :: y = v ++ '{' :: z) : u = v ∧ y = z := by
  induction u generalizing v with
  | nil =>
      cases v with
      | nil => exact ⟨rfl, (List.cons.inj h).2⟩
      | cons d v =>
          obtain ⟨rfl, -⟩ := List.cons.inj h
          exact absurd List.mem_cons_self hv
  | cons c u ih =>
      cases v with
      | nil =>
          obtain ⟨rfl, -⟩ := List.cons.inj h
          exact absurd List.mem_cons_self hu
      | cons d v =>
          simp only [List.mem_cons, not_or] at hu hv
          obtain ⟨rfl, hrest⟩ := List.cons.inj h
          obtain ⟨rfl, rfl⟩ := ih hu.2 hv.2 hrest
          exact ⟨rfl, rfl⟩

theorem BeforeBrace.bind_toBrace {p q : Part} (hp : BeforeBrace p) (hq : ToBrace q) :
    ToBrace fun t => p t >>= q where
  stops u := by
    obtain ⟨r, -, hpu⟩ := hp.stops u
    cases r with
    | none => exact ⟨none, fun y => by simp [hpu y]⟩
    | some v =>
        obtain ⟨r', hqv⟩ := hq.stops v
        exact ⟨r', fun y => by simp [hpu y, hqv y]⟩
  first t r h := by
    obtain ⟨s, hs, hr⟩ := Option.bind_eq_some_iff.mp h
    obtain ⟨v, hv, rfl⟩ := hq.first s r hr
    -- The first brace of the whole text is still there after the first part.
    obtain ⟨w, hw⟩ := hp.suffix t _ hs
    have hmem : '{' ∈ t := by simp [← hw]
    obtain ⟨u, y, rfl, hu⟩ := List.eq_append_cons_of_mem hmem
    obtain ⟨r', hr', hpu⟩ := hp.stops u
    rw [hpu y] at hs
    obtain ⟨v', hv', he⟩ := Option.map_eq_some_iff.mp hs
    have hvu : '{' ∉ v' := fun hm => hu ((hr' v' hv').subset hm)
    obtain ⟨-, rfl⟩ := eq_of_append_brace hvu hv he
    exact ⟨u, hu, rfl⟩

theorem ToBrace.orElse {p q : Part} (hp : ToBrace p) (hq : ToBrace q) :
    ToBrace fun t => p t <|> q t where
  stops u := by
    obtain ⟨r, hr⟩ := hp.stops u
    obtain ⟨r', hr'⟩ := hq.stops u
    exact ⟨r <|> r', fun y => by rw [hr y, hr' y]; cases r <;> rfl⟩
  first t r h := by
    rcases hpt : p t with _ | s
    · rw [hpt] at h
      exact hq.first t r h
    · rw [hpt] at h
      obtain rfl := Option.some.inj h
      exact hp.first t s hpt

/-- White space, an equals sign and white space. -/
theorem beforeBrace_equals : BeforeBrace fun t => inOrder? ["="] (blanks t) :=
  beforeBrace_blanks.map (beforeBrace_inOrder? (by decide))

theorem toBrace_typedVariable? : ToBrace typedVariable? :=
  have types : BeforeBrace (inOrder? ["<", "String", ",", "WidgetBuilder"]) :=
    beforeBrace_inOrder? (by decide)
  have literal := beforeBrace_optionalConst.map beforeBrace_optionalTypes
  (beforeBrace_after? (by decide)).bind_toBrace <| types.bind_toBrace <|
    (beforeBrace_after? (by decide)).bind_toBrace <| beforeBrace_blanks?.bind_toBrace <|
      beforeBrace_word?.bind_toBrace <| beforeBrace_equals.bind_toBrace <|
        literal.bind_toBrace toBrace_brace

theorem toBrace_typedLiteral? : ToBrace typedLiteral? :=
  have types := beforeBrace_optionalConst.map beforeBrace_types?
  beforeBrace_word?.bind_toBrace <| beforeBrace_equals.bind_toBrace <|
    types.bind_toBrace toBrace_brace

theorem toBrace_tableHeader? : ToBrace tableHeader? :=
  toBrace_typedVariable?.orElse toBrace_typedLiteral?

/-! ## Search -/

/-- What is found is the place after an opening brace. -/
theorem findFrom?_eq_some {state : Scanner.State} {inside n : Nat} {t : Text}
    (h : findFrom? state inside t = some n) : ∃ u y, t = u ++ '{' :: y ∧ n = u.length + 1 := by
  induction t generalizing state inside n with
  | nil => simp [findFrom?] at h
  | cons c t ih =>
      have later : ∀ inside', (findFrom? (state.next c t.head?) inside' t).map (· + 1) = some n →
          ∃ u y, c :: t = u ++ '{' :: y ∧ n = u.length + 1 := by
        intro inside' h'
        obtain ⟨m, hm, rfl⟩ := Option.map_eq_some_iff.mp h'
        obtain ⟨u, y, rfl, rfl⟩ := ih hm
        exact ⟨c :: u, y, rfl, rfl⟩
      cases inside with
      | succ inside => exact later inside (by simpa only [findFrom?] using h)
      | zero =>
          simp only [findFrom?] at h
          split at h
          · next after hafter =>
              split at h
              · obtain ⟨u, -, hu⟩ := toBrace_tableHeader?.first _ _ hafter
                refine ⟨u, after, hu, ?_⟩
                have hn := Option.some.inj h
                have hlen := congrArg List.length hu
                simp only [List.length_append, List.length_cons] at hn hlen
                omega
              · exact later _ h
          · exact later _ h

theorem head?_append_brace (u y z : Text) : (u ++ '{' :: y).head? = (u ++ '{' :: z).head? := by
  cases u <;> rfl

/-- The search depends only on the text up to the brace that it finds. -/
theorem findFrom?_local {state : Scanner.State} {inside : Nat} {u y : Text}
    (h : findFrom? state inside (u ++ '{' :: y) = some (u.length + 1)) (z : Text) :
    findFrom? state inside (u ++ '{' :: z) = some (u.length + 1) := by
  induction u generalizing state inside with
  | nil =>
      -- Nothing is found before the first character, so the search does not go on after the brace.
      have later : ∀ state' inside', (findFrom? state' inside' y).map (· + 1) ≠ some 1 := by
        intro state' inside' h'
        obtain ⟨m, hm, hm0⟩ := Option.map_eq_some_iff.mp h'
        obtain ⟨u, -, -, hu⟩ := findFrom?_eq_some hm
        omega
      obtain ⟨r, hr⟩ := toBrace_tableHeader?.stops []
      simp only [List.nil_append] at hr
      cases inside with
      | succ inside => exact absurd h (later _ inside)
      | zero =>
          simp only [List.nil_append, findFrom?, hr] at h ⊢
          cases r with
          | none => exact absurd h (later _ 0)
          | some v =>
              simp only [Option.map_some] at h ⊢
              split at h
              · next hcode =>
                  simp only [hcode, if_true, List.length_append, List.length_cons,
                    Option.some.injEq, List.length_nil] at h ⊢
                  omega
              · exact absurd h (later _ _)
  | cons c u ih =>
      have later : ∀ inside',
          (findFrom? (state.next c (u ++ '{' :: y).head?) inside' (u ++ '{' :: y)).map (· + 1)
            = some ((c :: u).length + 1) →
          (findFrom? (state.next c (u ++ '{' :: z).head?) inside' (u ++ '{' :: z)).map (· + 1)
            = some ((c :: u).length + 1) := by
        intro inside' h'
        obtain ⟨m, hm, hlen⟩ := Option.map_eq_some_iff.mp h'
        simp only [List.length_cons, Nat.add_right_cancel_iff] at hlen
        rw [← head?_append_brace u y z, ih (hlen ▸ hm)]
        rfl
      obtain ⟨r, hr⟩ := toBrace_tableHeader?.stops (c :: u)
      simp only [List.cons_append] at hr
      cases inside with
      | succ inside => exact later inside h
      | zero =>
          simp only [List.cons_append, findFrom?, hr] at h ⊢
          cases r with
          | none => exact later 0 h
          | some v =>
              simp only [Option.map_some] at h ⊢
              -- How far the header goes does not depend on the text after the brace either.
              have hlen : (c :: (u ++ '{' :: z)).length - (v ++ z).length
                  = (c :: (u ++ '{' :: y)).length - (v ++ y).length := by
                simp only [List.length_cons, List.length_append]
                omega
              rw [hlen]
              split at h
              · next hcode => rw [if_pos hcode]; exact h
              · next hcode => rw [if_neg hcode]; exact later _ h

theorem findTable?_eq_some {t : Text} {n : Nat} (h : findTable? t = some n) :
    ∃ u y, t = u ++ '{' :: y ∧ n = u.length + 1 := findFrom?_eq_some h

end CanvasFlutter.Pattern

namespace CanvasFlutter.RouteDocument

/-! ## Table -/

/-- A text up to and with the opening brace of its table, what the table holds, and the text from
the closing brace on. -/
def tableParts? (body : Text) : Option (Text × Text × Text) := do
  let opening ← Pattern.findTable? body
  let length ← Scanner.closingBrace? (body.drop opening)
  return (body.take opening, (body.drop opening).take length, (body.drop opening).drop length)

theorem tableParts?_eq_some_iff {body front inner back : Text} :
    tableParts? body = some (front, inner, back) ↔ body = front ++ (inner ++ back) ∧
      Pattern.findTable? body = some front.length ∧
      Scanner.closingBrace? (inner ++ back) = some inner.length := by
  constructor
  · intro h
    obtain ⟨opening, hopen, h⟩ := Option.bind_eq_some_iff.mp h
    obtain ⟨length, hclose, h⟩ := Option.bind_eq_some_iff.mp h
    simp only [Option.pure_def, Option.some.injEq, Prod.mk.injEq] at h
    obtain ⟨rfl, rfl, rfl⟩ := h
    obtain ⟨u, y, hbody, rfl⟩ := Pattern.findTable?_eq_some hopen
    obtain ⟨v, z, hrest, rfl⟩ := Scanner.closingBrace?_eq_some hclose
    have hfront : (body.take (u.length + 1)).length = u.length + 1 := by
      rw [List.length_take, hbody, List.length_append, List.length_cons]
      omega
    have hinner : ((body.drop (u.length + 1)).take v.length).length = v.length := by
      rw [List.length_take, hrest, List.length_append]
      omega
    rw [List.take_append_drop, List.take_append_drop, hfront, hinner]
    exact ⟨rfl, hopen, hclose⟩
  · rintro ⟨rfl, hopen, hclose⟩
    simp [tableParts?, hopen, hclose]

/-- The parts of a text are the text, and the braces are where they should be. -/
theorem tableParts?_eq_some {body front inner back : Text}
    (h : tableParts? body = some (front, inner, back)) :
    body = front ++ (inner ++ back) ∧ (∃ u, front = u ++ ['{']) ∧ ∃ z, back = '}' :: z := by
  obtain ⟨rfl, hopen, hclose⟩ := tableParts?_eq_some_iff.mp h
  obtain ⟨u, y, hu, hfront⟩ := Pattern.findTable?_eq_some hopen
  obtain ⟨v, z, hv, hinner⟩ := Scanner.closingBrace?_eq_some hclose
  obtain ⟨rfl, -⟩ := List.append_inj (hu.trans (List.append_cons u '{' y)) (by simpa using hfront)
  obtain ⟨rfl, rfl⟩ := List.append_inj hv hinner.symm
  exact ⟨rfl, ⟨u, rfl⟩, z, rfl⟩

/-- Other neutral text between the braces of a table leaves the braces where they are. -/
theorem tableParts?_refill {body front inner back : Text}
    (h : tableParts? body = some (front, inner, back)) {other : Text}
    (hother : Scanner.Neutral other) :
    tableParts? (front ++ (other ++ back)) = some (front, other, back) := by
  obtain ⟨-, ⟨u, rfl⟩, z, rfl⟩ := tableParts?_eq_some h
  obtain ⟨rfl, hopen, -⟩ := tableParts?_eq_some_iff.mp h
  refine tableParts?_eq_some_iff.mpr ⟨rfl, ?_, Scanner.closingBrace?_of_neutral hother z⟩
  rw [List.append_assoc, List.singleton_append] at hopen ⊢
  rw [List.length_append, List.length_singleton] at hopen ⊢
  exact Pattern.findFrom?_local hopen _

/-- The table of a document is replaced between these braces. -/
theorem replaceTable?_eq (d : RouteDocument) (entries : List Text) :
    d.replaceTable? entries = (tableParts? d.body).map fun (front, _, back) =>
      { d with body := front ++ (tableBody entries ++ back) } := by
  simp only [replaceTable?, tableParts?]
  cases Pattern.findTable? d.body with
  | none => rfl
  | some opening =>
      simp only [Option.bind_eq_bind, Option.bind_some]
      cases Scanner.closingBrace? (d.body.drop opening) with
      | none => rfl
      | some length => simp

end CanvasFlutter.RouteDocument
