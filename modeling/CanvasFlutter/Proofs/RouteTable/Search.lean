import CanvasFlutter.Proofs.RouteTable.Header

namespace CanvasFlutter.Pattern

/-!
# `CanvasFlutter.Proofs.RouteTable.Search` — which header the search finds

A header ends with the first brace after its start, so headers that overlap share their brace. Of
these the search looks at the leftmost only: it finds the first brace whose leftmost header begins
in code. Where no header begins out of code and runs into one that begins in code, that is the
first header that begins in code.

## Contents
- **Places.** `headerEnd?`, `isCodeFrom`; `CodeHeader`, `LeftmostCodeHeader`.
- **First places.** `First`, `FindsFirst`.
- **Search.** `findTable?_eq_some_iff`.
-/

/-! ## Places -/

/-- Where the header that begins at a place of the text ends. -/
def headerEnd? (t : Text) (start : Nat) : Option Nat :=
  (tableHeader? (t.drop start)).map fun after => t.length - after.length

/-- Whether the character at a place stands in code, if the scanner begins in this state. -/
def isCodeFrom (state : Scanner.State) (t : Text) (place : Nat) : Bool :=
  (Scanner.mark state t)[place]?.any Prod.snd

/-- Whether the character at a place stands in code. -/
def isCodeAt (t : Text) (place : Nat) : Bool := isCodeFrom .code t place

/-- A header that begins in code ends here. -/
def CodeHeader (state : Scanner.State) (t : Text) (n : Nat) : Prop :=
  ∃ start, headerEnd? t start = some n ∧ isCodeFrom state t start = true

/-- The leftmost header that ends here begins in code. -/
def LeftmostCodeHeader (state : Scanner.State) (t : Text) (n : Nat) : Prop :=
  ∃ start, headerEnd? t start = some n ∧ isCodeFrom state t start = true ∧
    ∀ earlier < start, headerEnd? t earlier ≠ some n

theorem LeftmostCodeHeader.codeHeader {state : Scanner.State} {t : Text} {n : Nat}
    (h : LeftmostCodeHeader state t n) : CodeHeader state t n := by
  obtain ⟨start, hend, hcode, -⟩ := h
  exact ⟨start, hend, hcode⟩

@[simp] theorem isCodeFrom_zero (state : Scanner.State) (c : Char) (t : Text) :
    isCodeFrom state (c :: t) 0 = decide (state = .code) := rfl

@[simp] theorem isCodeFrom_succ (state : Scanner.State) (c : Char) (t : Text) (place : Nat) :
    isCodeFrom state (c :: t) (place + 1) = isCodeFrom (state.next c t.head?) t place := rfl

/-- Where headers end in a text at the end of another. -/
theorem headerEnd?_suffix {s t : Text} (h : s <:+ t) (start : Nat) :
    headerEnd? t (t.length - s.length + start)
      = (headerEnd? s start).map (t.length - s.length + ·) := by
  have hdrop := List.suffix_iff_eq_drop.mp h
  have hle := h.length_le
  rw [headerEnd?, headerEnd?, ← List.drop_drop, ← hdrop, Option.map_map]
  cases hheader : tableHeader? (s.drop start) with
  | none => rfl
  | some after =>
      obtain ⟨u, -, hu⟩ := toBrace_tableHeader?.first _ _ hheader
      have hlen := congrArg List.length hu
      simp only [List.length_drop, List.length_append, List.length_cons] at hlen
      simp only [Option.map_some, Function.comp_apply, Option.some.injEq]
      omega

theorem headerEnd?_succ (c : Char) (t : Text) (start : Nat) :
    headerEnd? (c :: t) (start + 1) = (headerEnd? t start).map (· + 1) := by
  have h := headerEnd?_suffix (List.suffix_cons c t) start
  have hlen : (c :: t).length - t.length = 1 := by
    rw [List.length_cons]
    omega
  simp only [hlen, Nat.add_comm 1] at h
  exact h

/-- A header ends with the first brace after its start. -/
theorem headerEnd?_eq_some {t : Text} {start n : Nat} (h : headerEnd? t start = some n) :
    ∃ u, '{' ∉ u ∧ t.drop start = u ++ '{' :: t.drop n ∧ n = start + (u.length + 1) := by
  obtain ⟨after, hafter, rfl⟩ := Option.map_eq_some_iff.mp h
  obtain ⟨u, hu, hdrop⟩ := toBrace_tableHeader?.first _ _ hafter
  have hlen := congrArg List.length hdrop
  simp only [List.length_drop, List.length_append, List.length_cons] at hlen
  have hn : t.length - after.length = start + (u.length + 1) := by omega
  refine ⟨u, hu, ?_, hn⟩
  have hrest : t.drop (start + (u.length + 1)) = after := by
    rw [← List.drop_drop, hdrop, ← List.drop_drop, List.drop_left, List.drop_one, List.tail_cons]
  rw [hn, hrest, hdrop]

theorem headerEnd?_nil (start : Nat) : headerEnd? [] start = none := by
  cases h : headerEnd? [] start with
  | none => rfl
  | some n =>
      obtain ⟨u, -, hu, -⟩ := headerEnd?_eq_some h
      simp at hu

theorem headerEnd?_zero {u y : Text} (hu : '{' ∉ u) {n : Nat}
    (h : headerEnd? (u ++ '{' :: y) 0 = some n) : n = u.length + 1 := by
  obtain ⟨v, hv, hdrop, rfl⟩ := headerEnd?_eq_some h
  obtain ⟨rfl, -⟩ := eq_of_append_brace hu hv hdrop
  omega

/-- No header ends before the first brace. -/
theorem length_lt_of_headerEnd? {u y : Text} (hu : '{' ∉ u) {start n : Nat}
    (h : headerEnd? (u ++ '{' :: y) start = some n) : u.length < n := by
  obtain ⟨v, hv, hdrop, rfl⟩ := headerEnd?_eq_some h
  by_cases hle : start ≤ u.length
  · rw [List.drop_append_of_le_length hle] at hdrop
    have hdu : '{' ∉ u.drop start := fun hm => hu (List.mem_of_mem_drop hm)
    obtain ⟨hdv, -⟩ := eq_of_append_brace hdu hv hdrop
    have := congrArg List.length hdv
    simp only [List.length_drop] at this
    omega
  · omega

theorem headerEnd?_pos {t : Text} {start n : Nat} (h : headerEnd? t start = some n) :
    start < n := by
  obtain ⟨u, -, -, rfl⟩ := headerEnd?_eq_some h
  omega

theorem CodeHeader.pos {state : Scanner.State} {t : Text} {n : Nat} (h : CodeHeader state t n) :
    0 < n := by
  obtain ⟨start, hend, -⟩ := h
  exact Nat.zero_lt_of_lt (headerEnd?_pos hend)

/-- Behind the first character of a text, headers are those of the rest. -/
theorem leftmostCodeHeader_cons {state : Scanner.State} {c : Char} {t : Text} {n : Nat}
    (h : headerEnd? (c :: t) 0 ≠ some (n + 1)) :
    LeftmostCodeHeader state (c :: t) (n + 1) ↔ LeftmostCodeHeader (state.next c t.head?) t n := by
  have hsucc : ∀ start, headerEnd? (c :: t) (start + 1) = some (n + 1)
      ↔ headerEnd? t start = some n := fun start => by
    rw [headerEnd?_succ]
    simp
  constructor
  · rintro ⟨start, hend, hcode, hleft⟩
    cases start with
    | zero => exact absurd hend h
    | succ start =>
        exact ⟨start, (hsucc start).mp hend, hcode, fun earlier hlt he =>
          hleft (earlier + 1) (by omega) ((hsucc earlier).mpr he)⟩
  · rintro ⟨start, hend, hcode, hleft⟩
    refine ⟨start + 1, (hsucc start).mpr hend, hcode, fun earlier hlt he => ?_⟩
    cases earlier with
    | zero => exact h he
    | succ earlier => exact hleft earlier (by omega) ((hsucc earlier).mp he)

/-! ## First places -/

/-- The first place with a property. -/
def First (p : Nat → Prop) (n : Nat) : Prop := p n ∧ ∀ m < n, ¬p m

theorem First.eq {p : Nat → Prop} {m n : Nat} (hm : First p m) (hn : First p n) : m = n := by
  rcases Nat.lt_trichotomy m n with h | h | h
  · exact absurd hm.1 (hn.2 m h)
  · exact h
  · exact absurd hn.1 (hm.2 n h)

theorem exists_first {p : Nat → Prop} {n : Nat} (h : p n) : ∃ m, First p m := by
  induction n using Nat.strongRecOn with
  | _ n ih =>
      by_cases hn : ∃ m < n, p m
      · obtain ⟨m, hlt, hm⟩ := hn
        exact ih m hlt hm
      · exact ⟨n, h, fun m hlt hm => hn ⟨m, hlt, hm⟩⟩

/-- First places in two texts, where the one is what the other is some places further on. -/
theorem first_add_iff {p q : Nat → Prop} {a b : Nat} (hp : ∀ n, p n → a ≤ n) (hq : ∀ n, q n → b ≤ n)
    (h : ∀ k, p (a + k) ↔ q (b + k)) (k : Nat) : First p (a + k) ↔ First q (b + k) := by
  refine and_congr (h k) ⟨fun hmin m hlt hm => ?_, fun hmin m hlt hm => ?_⟩
  · have hle := hq m hm
    obtain ⟨i, rfl⟩ := Nat.exists_eq_add_of_le hle
    exact hmin (a + i) (by omega) ((h i).mpr hm)
  · have hle := hp m hm
    obtain ⟨i, rfl⟩ := Nat.exists_eq_add_of_le hle
    exact hmin (b + i) (by omega) ((h i).mp hm)

/-- What finds the first place with a property, if there is one. -/
structure FindsFirst (found : Option Nat) (p : Nat → Prop) : Prop where
  some : ∀ n, found = .some n → First p n
  none : found = .none → ∀ n, ¬p n

theorem FindsFirst.eq_some_iff {found : Option Nat} {p : Nat → Prop} (h : FindsFirst found p)
    {n : Nat} : found = .some n ↔ First p n := by
  refine ⟨h.some n, fun hn => ?_⟩
  cases hf : found with
  | none => exact absurd hn.1 (h.none hf n)
  | some m => rw [(h.some m hf).eq hn]

/-- What is found so many places further on. -/
theorem FindsFirst.add {found : Option Nat} {p q : Nat → Prop} {a : Nat} (h : FindsFirst found p)
    (hle : ∀ n, q n → a ≤ n) (hadd : ∀ n, q (a + n) ↔ p n) : FindsFirst (found.map (a + ·)) q where
  some n hn := by
    obtain ⟨m, hm, rfl⟩ := Option.map_eq_some_iff.mp hn
    have hadd' : ∀ k, q (a + k) ↔ p (0 + k) := fun k => by rw [Nat.zero_add, hadd]
    refine (first_add_iff hle (fun _ _ => Nat.zero_le _) hadd' m).mpr ?_
    rw [Nat.zero_add]
    exact h.some m hm
  none hn n hq := by
    obtain ⟨n, rfl⟩ := Nat.exists_eq_add_of_le (hle n hq)
    exact h.none (Option.map_eq_none_iff.mp hn) n ((hadd n).mp hq)

/-- What is found one place further on. -/
theorem FindsFirst.succ {found : Option Nat} {p q : Nat → Prop} (h : FindsFirst found p)
    (hzero : ¬q 0) (hsucc : ∀ n, q (n + 1) ↔ p n) : FindsFirst (found.map (· + 1)) q := by
  have hpos : ∀ n, q n → 1 ≤ n := fun n hq =>
    Nat.pos_of_ne_zero fun hn => hzero (hn ▸ hq)
  have hfinds := h.add hpos fun n => by rw [Nat.add_comm, hsucc]
  simpa only [Nat.add_comm 1] using hfinds

/-! ## Search -/

/-- The search is behind a header, or within one that goes on to the next brace. -/
def WithinHeader (inside : Nat) (t : Text) : Prop :=
  inside = 0 ∨ ∃ u y, '{' ∉ u ∧ t = u ++ '{' :: y ∧ inside = u.length + 1

theorem WithinHeader.tail {c : Char} {u t y : Text} (hu : '{' ∉ u) (h : c :: t = u ++ '{' :: y) :
    WithinHeader u.length t := by
  cases u with
  | nil => exact .inl rfl
  | cons d u =>
      obtain ⟨rfl, rfl⟩ := List.cons.inj h
      exact .inr ⟨u, y, fun hm => hu (List.mem_cons_of_mem c hm), rfl, rfl⟩

/-- A header at the first character that runs to the first brace. -/
theorem tableHeader?_eq_some {t after : Text} (h : tableHeader? t = some after) :
    ∃ u, '{' ∉ u ∧ t = u ++ '{' :: after ∧ t.length - after.length = u.length + 1 ∧
      headerEnd? t 0 = some (u.length + 1) := by
  obtain ⟨u, hu, rfl⟩ := toBrace_tableHeader?.first _ _ h
  have hlen : (u ++ '{' :: after).length - after.length = u.length + 1 := by
    rw [List.length_append, List.length_cons]
    omega
  exact ⟨u, hu, rfl, hlen, by rw [headerEnd?, List.drop_zero, h, Option.map_some, hlen]⟩

/-- The search goes on from the first character of a header that it is in. -/
theorem findsFirst_within {state : Scanner.State} {c : Char} {u t y : Text} {found : Option Nat}
    (hu : '{' ∉ u) (ht : c :: t = u ++ '{' :: y)
    (h : FindsFirst found fun n =>
      u.length < n ∧ LeftmostCodeHeader (state.next c t.head?) t n) :
    FindsFirst (found.map (· + 1)) fun n =>
      u.length + 1 < n ∧ LeftmostCodeHeader state (c :: t) n := by
  refine h.succ (by simp) fun n => ?_
  rw [Nat.add_lt_add_iff_right]
  refine and_congr_right fun hlt => leftmostCodeHeader_cons fun hn => ?_
  rw [ht] at hn
  have := headerEnd?_zero hu hn
  omega

/-- The search goes on from a character at which no header begins. -/
theorem findsFirst_of_none {state : Scanner.State} {c : Char} {t : Text} {found : Option Nat}
    (hend : headerEnd? (c :: t) 0 = none)
    (h : FindsFirst found fun n => 0 < n ∧ LeftmostCodeHeader (state.next c t.head?) t n) :
    FindsFirst (found.map (· + 1)) fun n => 0 < n ∧ LeftmostCodeHeader state (c :: t) n := by
  refine h.succ (by simp) fun n => ?_
  rw [leftmostCodeHeader_cons (by simp [hend])]
  exact ⟨fun hn => ⟨hn.2.codeHeader.pos, hn.2⟩, fun hn => ⟨Nat.succ_pos n, hn.2⟩⟩

/-- The search ends with a header that begins in code: none ends before it. -/
theorem findsFirst_of_code {c : Char} {u t y : Text} (hu : '{' ∉ u) (ht : c :: t = u ++ '{' :: y)
    (hend : headerEnd? (c :: t) 0 = some (u.length + 1)) :
    FindsFirst (some (u.length + 1)) fun n => 0 < n ∧ LeftmostCodeHeader .code (c :: t) n := by
  refine ⟨fun n hn => ?_, by simp⟩
  obtain rfl := Option.some.inj hn
  refine ⟨⟨Nat.succ_pos _, 0, hend, by simp, by simp⟩, fun m hm hp => ?_⟩
  obtain ⟨-, start, hstart, -⟩ := hp
  rw [ht] at hstart
  have := length_lt_of_headerEnd? hu hstart
  omega

/-- The search goes on from a header that begins out of code: it is the leftmost that ends with its
brace, so no header that runs into it counts. -/
theorem findsFirst_past {state : Scanner.State} {c : Char} {u t y : Text} {found : Option Nat}
    (hu : '{' ∉ u) (ht : c :: t = u ++ '{' :: y)
    (hend : headerEnd? (c :: t) 0 = some (u.length + 1)) (hcode : state ≠ .code)
    (h : FindsFirst found fun n =>
      u.length < n ∧ LeftmostCodeHeader (state.next c t.head?) t n) :
    FindsFirst (found.map (· + 1)) fun n => 0 < n ∧ LeftmostCodeHeader state (c :: t) n := by
  have hother : ∀ n, n ≠ u.length → headerEnd? (c :: t) 0 ≠ some (n + 1) := fun n hne => by
    rw [hend, ne_eq, Option.some.injEq]
    omega
  refine h.succ (by simp) fun n => ⟨?_, ?_⟩
  · rintro ⟨-, hn⟩
    have hne : n ≠ u.length := by
      rintro rfl
      obtain ⟨start, -, hstart, hleft⟩ := hn
      cases start with
      | zero => simp [hcode] at hstart
      -- The header at the first character ends there as well, and is further left.
      | succ start => exact hleft 0 (Nat.succ_pos start) hend
    have hlt : u.length < n := by
      obtain ⟨start, hstart, -⟩ := hn
      rw [ht] at hstart
      have := length_lt_of_headerEnd? hu hstart
      omega
    exact ⟨hlt, (leftmostCodeHeader_cons (hother n hne)).mp hn⟩
  · rintro ⟨hlt, hn⟩
    exact ⟨Nat.succ_pos n, (leftmostCodeHeader_cons (hother n (by omega))).mpr hn⟩

/-- The search finds the first brace behind the header that it is in whose leftmost header begins in
code. -/
theorem findsFirst_findFrom? {state : Scanner.State} {inside : Nat} {t : Text}
    (h : WithinHeader inside t) :
    FindsFirst (findFrom? state inside t) fun n => inside < n ∧ LeftmostCodeHeader state t n := by
  induction t generalizing state inside with
  | nil =>
      refine ⟨by simp [findFrom?], fun _ n hn => ?_⟩
      obtain ⟨-, start, hend, -⟩ := hn
      simp [headerEnd?_nil] at hend
  | cons c t ih =>
      cases inside with
      | succ inside =>
          obtain hzero | ⟨u, y, hu, ht, hinside⟩ := h
          · simp at hzero
          · obtain rfl : inside = u.length := by omega
            rw [findFrom?]
            exact findsFirst_within hu ht (ih (.tail hu ht))
      | zero =>
          cases hheader : tableHeader? (c :: t) with
          | none =>
              simp only [findFrom?, hheader]
              exact findsFirst_of_none (by simp [headerEnd?, hheader]) (ih (.inl rfl))
          | some after =>
              obtain ⟨u, hu, ht, hlen, hend⟩ := tableHeader?_eq_some hheader
              simp only [findFrom?, hheader, hlen]
              by_cases hcode : state = .code
              · subst hcode
                rw [if_pos rfl]
                exact findsFirst_of_code hu ht hend
              -- The search goes on within this header, up to its brace.
              · rw [if_neg hcode]
                exact findsFirst_past hu ht hend hcode (ih (.tail hu ht))

/-- **The search.** What is found is the first brace whose leftmost header begins in code. -/
theorem findTable?_eq_some_iff {t : Text} {n : Nat} :
    findTable? t = some n ↔ First (LeftmostCodeHeader .code t) n := by
  have h : FindsFirst (findFrom? .code 0 t) fun n => 0 < n ∧ LeftmostCodeHeader .code t n :=
    findsFirst_findFrom? (.inl rfl)
  have hpos : ∀ m, 0 < m ∧ LeftmostCodeHeader .code t m ↔ LeftmostCodeHeader .code t m :=
    fun m => ⟨And.right, fun hm => ⟨hm.codeHeader.pos, hm⟩⟩
  rw [findTable?, h.eq_some_iff]
  simp only [First, hpos]

end CanvasFlutter.Pattern
