import CanvasFlutter.Proofs.RouteTable.Balanced
import CanvasFlutter.Proofs.RouteTable.Search

namespace CanvasFlutter.Scanner

/-!
# `CanvasFlutter.Proofs.RouteTable.Span` — scanning by whole strings and comments

What is code can be told character by character, with a state, or from span to span, where a string
or a comment is passed over in one jump. A jump lands where the state is code again, or beyond the
end of the text. So it makes no difference where a walk over the spans begins, if only it begins in
code: the walk from an open brace to the brace that closes it sees the same code as the walk from
the start of the text.

## Contents
- **Spans.** `spanLength?`, `spanEnd?`: how far a string or a comment goes.
- **Walks.** `isOutside` from the start of the text, `matchingBrace` from an open brace.
- **Marks.** `mark_of_spanLength?`: a span is marked as what it is; `isOutside_eq_isCodeAt`,
  `matchFrom_eq_ofOption`.
- **Balance.** `bracesBetween`, `Closes` count braces place by place, `Balances` on marked characters;
  `findsFirst_closingFrom?`.
- **Places.** `closes_iff_balances`; `matchingBrace_eq_found_iff`.
-/

open Pattern

/-! ## Spans -/

/-- How many characters stand in a string before the quote that ends it. A backslash takes the next
character along, even one beyond the end of the text. -/
def stringLength (quote : Char) : Text → Nat
  | [] => 0
  | [c] => if c = quote then 0 else if c = '\\' then 2 else 1
  | c :: d :: t =>
      if c = quote then 0
      else if c = '\\' then stringLength quote t + 2
      else stringLength quote (d :: t) + 1

/-- How many characters stand in a comment before the `*/` that ends it; the last character of the
text is not looked at. -/
def commentLength : Text → Nat
  | [] => 0
  | [_] => 0
  | c :: d :: t => if c = '*' ∧ d = '/' then 0 else commentLength (d :: t) + 1

/-- How many characters stand on the rest of a line. -/
def lineLength (t : Text) : Nat := (t.takeWhile (· ≠ '\n')).length

/-- How many characters behind the first one belong to the string or comment that begins with it;
more than there are if it has no end. -/
def spanLength? : Text → Option Nat
  | [] => none
  | c :: t =>
      if c = '\'' ∨ c = '"' then some (stringLength c t + 1)
      else if c = '/' ∧ t.head? = some '/' then some (lineLength t + 1)
      else if c = '/' ∧ t.head? = some '*' then some (commentLength t.tail + 3)
      else none

/-- The place of the last character of the string or comment that begins at a place. -/
def spanEnd? (t : Text) (start : Nat) : Option Nat :=
  (spanLength? (t.drop start)).map (start + ·)

theorem le_of_spanEnd? {t : Text} {start last : Nat} (h : spanEnd? t start = some last) :
    start ≤ last := by
  obtain ⟨n, -, rfl⟩ := Option.map_eq_some_iff.mp h
  exact Nat.le_add_right start n

/-! ## Walks -/

/-- Whether a walk over the spans that has come to a place in code also comes to this one. -/
def reaches (t : Text) (place i : Nat) : Bool :=
  if i < place then
    match h : spanEnd? t i with
    | some last => if place ≤ last then false else reaches t place (last + 1)
    | none => reaches t place (i + 1)
  else true
termination_by place - i
decreasing_by
  · have := le_of_spanEnd? h
    omega
  · omega

/-- Whether a place is outside of every string and comment of the text. -/
def isOutside (t : Text) (place : Nat) : Bool := reaches t place 0

/-- What a walk to the closing brace comes to. -/
inductive Closing where
  | found (place : Nat)
  | missing
  /-- A brace closes although none is open. -/
  | underflow
  deriving DecidableEq, Repr

/-- A walk over the spans that has come to a place with so many braces open. -/
def matchFrom (t : Text) (depth i : Nat) : Closing :=
  if hi : i < t.length then
    if t[i] = '{' then matchFrom t (depth + 1) (i + 1)
    else if t[i] = '}' then
      match depth with
      | 0 => .underflow
      | 1 => .found i
      | depth + 2 => matchFrom t (depth + 1) (i + 1)
    else
      match h : spanEnd? t i with
      | some last => matchFrom t depth (last + 1)
      | none => matchFrom t depth (i + 1)
  else .missing
termination_by t.length - i
decreasing_by
  · omega
  · omega
  · have := le_of_spanEnd? h
    omega
  · omega

/-- The walk from an open brace to the brace that closes it. -/
def matchingBrace (t : Text) (opening : Nat) : Closing := matchFrom t 0 opening

/-! ## Marks -/

/-- Characters that are not code. -/
def hidden (t : Text) : List (Char × Bool) := t.map (·, false)

/-- A text that is hidden at first and in code again after so many characters. -/
def CodeAfter (state : State) (n : Nat) (t : Text) : Prop :=
  mark state t = hidden (t.take n) ++ mark .code (t.drop n)

theorem codeAfter_nil (state : State) (n : Nat) : CodeAfter state n [] := by
  cases n <;> rfl

theorem CodeAfter.cons {state : State} {n : Nat} {c : Char} {t : Text} (hstate : state ≠ .code)
    (h : CodeAfter (state.next c t.head?) n t) : CodeAfter state (n + 1) (c :: t) := by
  rw [CodeAfter, mark, h, decide_eq_false hstate]
  rfl

/-- The next character is in code. -/
theorem codeAfter_one {state : State} {c : Char} {t : Text} (hstate : state ≠ .code)
    (h : state.next c t.head? = .code) : CodeAfter state 1 (c :: t) := by
  refine CodeAfter.cons (n := 0) hstate ?_
  rw [h]
  rfl

theorem codeAfter_string (quote : Char) (t : Text) :
    CodeAfter (.quoted quote) (stringLength quote t + 1) t := by
  fun_induction stringLength quote t with
  -- Nothing is marked beyond the end of the text, however far the string is said to go.
  | case1 => exact codeAfter_nil _ _
  | case2 => exact codeAfter_one State.noConfusion (if_pos rfl)
  | case3 hslash => exact (codeAfter_nil _ _).cons State.noConfusion
  | case4 c hc hslash => exact (codeAfter_nil _ _).cons State.noConfusion
  | case5 d t => exact codeAfter_one State.noConfusion (if_pos rfl)
  | case6 d t hslash ih =>
      have hnext : ∀ following, (State.quoted quote).next '\\' following = .escaped quote :=
        fun _ => by rw [State.next, if_neg hslash, if_pos rfl]
      have hescaped : CodeAfter (.escaped quote) (stringLength quote t + 2) (d :: t) :=
        ih.cons State.noConfusion
      exact CodeAfter.cons State.noConfusion (by rwa [hnext])
  | case7 c d t hc hslash ih =>
      have hnext : ∀ following, (State.quoted quote).next c following = .quoted quote :=
        fun _ => by rw [State.next, if_neg hc, if_neg hslash]
      exact CodeAfter.cons State.noConfusion (by rwa [hnext])

theorem codeAfter_lineComment (t : Text) : CodeAfter .lineComment (lineLength t + 1) t := by
  induction t with
  | nil => exact codeAfter_nil _ _
  | cons c t ih =>
      by_cases hc : c = '\n'
      · have hlength : lineLength (c :: t) = 0 := by simp [lineLength, hc]
        rw [hlength]
        exact codeAfter_one State.noConfusion (if_pos hc)
      · have hlength : lineLength (c :: t) = lineLength t + 1 := by simp [lineLength, hc]
        rw [hlength]
        exact CodeAfter.cons State.noConfusion (by rwa [next_lineComment hc])

theorem codeAfter_blockComment (t : Text) : CodeAfter .blockComment (commentLength t + 2) t := by
  fun_induction commentLength t with
  | case1 => exact codeAfter_nil _ _
  | case2 c => exact (codeAfter_nil _ 1).cons State.noConfusion
  | case3 c d t hend =>
      obtain ⟨rfl, rfl⟩ := hend
      have hclosing : CodeAfter .blockClosing 1 ('/' :: t) := codeAfter_one State.noConfusion rfl
      exact hclosing.cons State.noConfusion
  | case4 c d t hend ih =>
      have hnext : State.blockComment.next c (d :: t).head? = .blockComment :=
        if_neg fun h => hend ⟨h.1, Option.some.inj h.2⟩
      exact CodeAfter.cons State.noConfusion (by rwa [hnext])

/-- **A jump lands in code.** What a span holds behind its first character is hidden, and what
follows it is marked as from the start of a text. -/
theorem codeAfter_of_spanLength? {c : Char} {t : Text} {n : Nat}
    (h : spanLength? (c :: t) = some n) : CodeAfter (State.code.next c t.head?) n t := by
  rw [spanLength?] at h
  rw [State.next]
  split at h
  · next hquote =>
      obtain rfl := Option.some.inj h
      rw [if_pos hquote]
      exact codeAfter_string c t
  · next hquote =>
      rw [if_neg hquote]
      split at h
      · next hline =>
          obtain rfl := Option.some.inj h
          rw [if_pos hline]
          exact codeAfter_lineComment t
      · next hline =>
          rw [if_neg hline]
          split at h
          · next hblock =>
              obtain rfl := Option.some.inj h
              obtain ⟨t, rfl⟩ := List.head?_eq_some_iff.mp hblock.2
              rw [if_pos hblock]
              exact (codeAfter_blockComment t).cons State.noConfusion
          · exact absurd h (by simp)

/-- Where no span begins, the next character is in code. -/
theorem next_of_spanLength? {c : Char} {t : Text} (h : spanLength? (c :: t) = none) :
    State.code.next c t.head? = .code := by
  rw [spanLength?] at h
  split at h
  · exact absurd h (by simp)
  · next hquote =>
      split at h
      · exact absurd h (by simp)
      · next hline =>
          split at h
          · exact absurd h (by simp)
          · next hblock => rw [State.next, if_neg hquote, if_neg hline, if_neg hblock]

/-- What is code behind a place from which on it is. -/
theorem CodeAfter.isCodeFrom {state : State} {n : Nat} {t : Text} (h : CodeAfter state n t)
    (place : Nat) : Pattern.isCodeFrom state t place
      = if place < n then false else Pattern.isCodeFrom .code (t.drop n) (place - n) := by
  have hlength : (hidden (t.take n)).length = min n t.length := by simp [hidden]
  rw [Pattern.isCodeFrom, h]
  by_cases hplace : place < min n t.length
  · have hhidden : (hidden (t.take n))[place]? = (t.take n)[place]?.map (·, false) := by
      rw [hidden, List.getElem?_map]
    rw [List.getElem?_append_left (by omega), hhidden, if_pos (by omega)]
    cases (t.take n)[place]? <;> rfl
  · rw [List.getElem?_append_right (by omega), hlength]
    by_cases hn : n ≤ t.length
    · rw [Nat.min_eq_left hn, if_neg (by omega)]
      rfl
    -- Nothing stands beyond the end of the text.
    · have hdrop : t.drop n = [] := List.drop_eq_nil_of_le (by omega)
      rw [hdrop]
      split <;> rfl

theorem isCodeFrom_drop {t : Text} {i : Nat} (hi : i < t.length) (k : Nat) :
    isCodeFrom .code (t.drop i) (i + k + 1 - i)
      = isCodeFrom (State.code.next t[i] (t.drop (i + 1)).head?) (t.drop (i + 1)) k := by
  have hk : i + k + 1 - i = k + 1 := by omega
  rw [List.drop_eq_getElem_cons hi, hk, isCodeFrom_succ]

theorem exists_spanLength? {t : Text} {i last : Nat} (hi : i < t.length)
    (h : spanEnd? t i = some last) :
    ∃ n, spanLength? (t[i] :: t.drop (i + 1)) = some n ∧ last = i + n := by
  rw [spanEnd?, List.drop_eq_getElem_cons hi] at h
  obtain ⟨n, hn, rfl⟩ := Option.map_eq_some_iff.mp h
  exact ⟨n, hn, rfl⟩

theorem spanLength?_eq_none {t : Text} {i : Nat} (hi : i < t.length) (h : spanEnd? t i = none) :
    spanLength? (t[i] :: t.drop (i + 1)) = none := by
  rwa [spanEnd?, List.drop_eq_getElem_cons hi, Option.map_eq_none_iff] at h

/-- A walk that has come to a place in code comes to another one exactly if that is in code, as
scanned from the first. -/
theorem reaches_eq_isCodeFrom {t : Text} {place i : Nat} (h : i ≤ place)
    (hplace : place < t.length) :
    reaches t place i = isCodeFrom .code (t.drop i) (place - i) := by
  fun_induction reaches t place i with
  -- The span goes as far as the place, which is hidden with it.
  | case1 i hlt last hspan hle =>
      have hi : i < t.length := Nat.lt_trans hlt hplace
      obtain ⟨n, hn, rfl⟩ := exists_spanLength? hi hspan
      obtain ⟨k, rfl⟩ := Nat.exists_eq_add_of_lt hlt
      rw [isCodeFrom_drop hi, (codeAfter_of_spanLength? hn).isCodeFrom,
        if_pos (by omega)]
  | case2 i hlt last hspan hle ih =>
      have hi : i < t.length := Nat.lt_trans hlt hplace
      obtain ⟨n, hn, rfl⟩ := exists_spanLength? hi hspan
      obtain ⟨k, rfl⟩ := Nat.exists_eq_add_of_lt hlt
      have hstart : i + n + 1 = i + 1 + n := by omega
      have hrest : i + k + 1 - (i + 1 + n) = k - n := by omega
      rw [isCodeFrom_drop hi, (codeAfter_of_spanLength? hn).isCodeFrom,
        if_neg (by omega), ih (by omega), List.drop_drop, hstart, hrest]
  | case3 i hlt hspan ih =>
      have hi : i < t.length := Nat.lt_trans hlt hplace
      have hnone := spanLength?_eq_none hi hspan
      obtain ⟨k, rfl⟩ := Nat.exists_eq_add_of_lt hlt
      have hrest : i + k + 1 - (i + 1) = k := by omega
      rw [isCodeFrom_drop hi, next_of_spanLength? hnone, ih (by omega), hrest]
  | case4 i hlt =>
      obtain rfl : i = place := by omega
      rw [Nat.sub_self, List.drop_eq_getElem_cons hplace]
      rfl

/-- **Both scanners tell the same places of code.** -/
theorem isOutside_eq_isCodeAt {t : Text} {place : Nat} (h : place < t.length) :
    isOutside t place = isCodeAt t place := reaches_eq_isCodeFrom (Nat.zero_le place) h

/-- What is hidden is passed over. -/
theorem closingFrom?_hidden (depth : Nat) (s : Text) (marks : List (Char × Bool)) :
    closingFrom? depth (hidden s ++ marks) = (closingFrom? depth marks).map (· + s.length) := by
  induction s with
  | nil => simp [hidden]
  | cons c s ih =>
      have hcons : closingFrom? depth (hidden (c :: s) ++ marks)
          = (closingFrom? depth (hidden s ++ marks)).map (· + 1) := rfl
      rw [hcons, ih, map_add_add, List.length_cons]

/-- A span is passed over. -/
theorem closingFrom?_span {depth n : Nat} {c : Char} {t : Text} (hopen : c ≠ '{') (hclose : c ≠ '}')
    (h : spanLength? (c :: t) = some n) :
    closingFrom? depth (mark .code (c :: t))
      = (closingFrom? depth (mark .code (t.drop n))).map (· + (n + 1)) := by
  rw [closingFrom?_code hopen hclose, codeAfter_of_spanLength? h, closingFrom?_hidden, map_add_add]
  by_cases hlength : n ≤ t.length
  · rw [List.length_take_of_le hlength]
  -- Beyond the end of the text nothing is found.
  · rw [List.drop_eq_nil_of_le (by omega)]
    rfl

/-- What a search comes to that cannot underflow. -/
def Closing.ofOption : Option Nat → Closing
  | some place => .found place
  | none => .missing

theorem map_add_place (o : Option Nat) (i n : Nat) :
    (o.map (· + n)).map (i + ·) = o.map (i + n + ·) := by
  rw [Option.map_map]
  congr 1
  funext m
  simp only [Function.comp_apply]
  omega

/-- **The walk over the spans finds what the marks say**, and no brace closes on the way unless one
is open. -/
theorem matchFrom_eq_ofOption {t : Text} {depth i : Nat} (h : 0 < depth) :
    matchFrom t depth i
      = .ofOption ((closingFrom? depth (mark .code (t.drop i))).map (i + ·)) := by
  fun_induction matchFrom t depth i with
  | case1 depth i hi hopen ih =>
      rw [List.drop_eq_getElem_cons hi, hopen, closingFrom?_opening, map_add_place,
        ih (Nat.succ_pos depth)]
  -- A brace closes while none is open: from an open brace on, one is.
  | case2 i hi hopen hclose => exact absurd h (Nat.lt_irrefl 0)
  | case3 i hi hopen hclose =>
      rw [List.drop_eq_getElem_cons hi, hclose, closingFrom?_closing_one]
      rfl
  | case4 i hi hopen hclose depth ih =>
      rw [List.drop_eq_getElem_cons hi, hclose, closingFrom?_closing, map_add_place,
        ih (Nat.succ_pos depth)]
  | case5 depth i hi hopen hclose last hspan ih =>
      obtain ⟨n, hn, rfl⟩ := exists_spanLength? hi hspan
      rw [List.drop_eq_getElem_cons hi, closingFrom?_span hopen hclose hn, map_add_place, ih h,
        List.drop_drop, Nat.add_right_comm i 1 n]
      rfl
  | case6 depth i hi hopen hclose hspan ih =>
      rw [List.drop_eq_getElem_cons hi, closingFrom?_code hopen hclose,
        next_of_spanLength? (spanLength?_eq_none hi hspan), map_add_place, ih h]
  | case7 depth i hi =>
      rw [List.drop_eq_nil_of_le (Nat.le_of_not_lt hi)]
      rfl

/-! ## Balance -/

/-- How many braces of one kind stand in code from one place to another, both included. -/
def bracesBetween (t : Text) (brace : Char) (first last : Nat) : Nat :=
  (List.range' first (last + 1 - first)).countP fun place =>
    t[place]? = some brace ∧ isOutside t place = true

/-- A closing brace in code up to which the braces in code balance. -/
structure Closes (t : Text) (opening place : Nat) : Prop where
  behind : opening < place
  brace : t[place]? = some '}'
  code : isOutside t place = true
  balanced : bracesBetween t '{' opening place = bracesBetween t '}' opening place

/-- A brace that closes as many as are open, counted on marked characters. -/
def Balances (depth : Nat) (marks : List (Char × Bool)) (n : Nat) : Prop :=
  marks[n]? = some ('}', true)
    ∧ depth + (marks.take (n + 1)).count ('{', true) = (marks.take (n + 1)).count ('}', true)

section

variable {depth n : Nat} {marks : List (Char × Bool)}

theorem balances_closing_zero : Balances depth (('}', true) :: marks) 0 ↔ depth = 1 := by
  simp [Balances]

theorem not_balances_zero {m : Char × Bool} (h : m ≠ ('}', true)) :
    ¬ Balances depth (m :: marks) 0 :=
  fun hbalances => h (Option.some.inj hbalances.1)

theorem balances_opening_succ :
    Balances depth (('{', true) :: marks) (n + 1) ↔ Balances (depth + 1) marks n := by
  simp only [Balances, List.getElem?_cons_succ, List.take_succ_cons, List.count_cons_self]
  rw [List.count_cons_of_ne (by decide), Nat.add_right_comm, Nat.add_assoc depth]

theorem balances_closing_succ :
    Balances (depth + 1) (('}', true) :: marks) (n + 1) ↔ Balances depth marks n := by
  simp only [Balances, List.getElem?_cons_succ, List.take_succ_cons, List.count_cons_self]
  rw [List.count_cons_of_ne (by decide), Nat.add_right_comm, Nat.add_right_cancel_iff]

theorem balances_other_succ {m : Char × Bool} (hopen : m ≠ ('{', true)) (hclose : m ≠ ('}', true)) :
    Balances depth (m :: marks) (n + 1) ↔ Balances depth marks n := by
  rw [Balances, List.getElem?_cons_succ, List.take_succ_cons, List.count_cons_of_ne hopen,
    List.count_cons_of_ne hclose, ← Balances]

theorem closingFrom?_other {m : Char × Bool} (hopen : m ≠ ('{', true)) (hclose : m ≠ ('}', true)) :
    closingFrom? depth (m :: marks) = (closingFrom? depth marks).map (· + 1) := by
  obtain ⟨c, isCode⟩ := m
  have hbrace : ∀ brace, (c, isCode) ≠ (brace, true) → (isCode && c == brace) = false := by
    intro brace hne
    cases isCode with
    | false => rfl
    | true => simpa using hne
  rw [closingFrom?, hbrace '{' hopen, hbrace '}' hclose]
  rfl

end

/-- The scanner finds the first brace that closes as many as are open. -/
theorem findsFirst_closingFrom? {depth : Nat} (h : 0 < depth) (marks : List (Char × Bool)) :
    FindsFirst (closingFrom? depth marks) (Balances depth marks) := by
  induction marks generalizing depth with
  | nil => exact ⟨fun n hn => by simp [closingFrom?] at hn, fun _ n hn => by simp [Balances] at hn⟩
  | cons m marks ih =>
      by_cases hopen : m = ('{', true)
      · subst hopen
        exact (ih (Nat.succ_pos depth)).succ (not_balances_zero (by decide))
          fun n => balances_opening_succ
      by_cases hclose : m = ('}', true)
      · subst hclose
        obtain _ | _ | depth := depth
        · exact absurd h (Nat.lt_irrefl 0)
        -- The last open brace is closed.
        · refine ⟨fun n hn => ?_, fun hnone => absurd hnone (by simp [closingFrom?])⟩
          obtain rfl : 0 = n := Option.some.inj hn
          exact ⟨balances_closing_zero.mpr rfl, fun m hm => absurd hm (Nat.not_lt_zero m)⟩
        · refine (ih (Nat.succ_pos depth)).succ ?_ fun n => balances_closing_succ
          rw [balances_closing_zero]
          omega
      · rw [closingFrom?_other hopen hclose]
        exact (ih h).succ (not_balances_zero hclose) fun n => balances_other_succ hopen hclose

/-! ## Places -/

theorem countP_getElem? {α : Type} [BEq α] [LawfulBEq α] (l : List α) (a : α) (first n : Nat) :
    (List.range' first n).countP (fun i => l[i]? == some a) = ((l.drop first).take n).count a := by
  induction n generalizing first with
  | zero => rfl
  | succ n ih =>
      rw [List.range'_succ, List.countP_cons, ih]
      by_cases hfirst : first < l.length
      · rw [List.drop_eq_getElem_cons hfirst, List.take_succ_cons, List.count_cons,
          List.getElem?_eq_getElem hfirst, Option.some_beq_some]
      · have hnone : l[first]? = none := List.getElem?_eq_none (by omega)
        rw [List.drop_eq_nil_of_le (by omega), List.drop_eq_nil_of_le (by omega), hnone]
        simp

theorem getElem?_mark_iff {t : Text} {place : Nat} {c : Char} :
    (mark .code t)[place]? = some (c, true) ↔ t[place]? = some c ∧ isOutside t place = true := by
  have htext : t[place]? = ((mark .code t)[place]?).map Prod.fst := by
    rw [← List.getElem?_map, map_fst_mark]
  have houtside : ∀ c, t[place]? = some c → isOutside t place = isCodeAt t place := fun c h =>
    isOutside_eq_isCodeAt (List.getElem?_eq_some_iff.mp h).1
  constructor
  · intro h
    have hc : t[place]? = some c := by rw [htext, h]; rfl
    refine ⟨hc, ?_⟩
    rw [houtside c hc, isCodeAt, isCodeFrom, h]
    rfl
  · rintro ⟨hc, hcode⟩
    rw [houtside c hc, isCodeAt, isCodeFrom] at hcode
    rw [htext] at hc
    obtain ⟨⟨d, isCode⟩, hmark, rfl⟩ := Option.map_eq_some_iff.mp hc
    rw [hmark] at hcode
    rw [hmark]
    exact congrArg (fun b => some (d, b)) hcode

/-- Behind a place in code the marks are those of a text of its own. -/
theorem drop_mark {state : State} {t : Text} {place : Nat} {c : Char}
    (h : (mark state t)[place]? = some (c, true)) :
    (mark state t).drop place = mark .code (t.drop place) := by
  induction place generalizing state t with
  | zero =>
      cases t with
      | nil => simp [mark] at h
      | cons d t =>
          have hcode : state = .code := by
            have := congrArg Prod.snd (Option.some.inj h)
            exact of_decide_eq_true this
          rw [hcode]
          rfl
  | succ place ih =>
      cases t with
      | nil => simp [mark] at h
      | cons d t => exact ih h

theorem bracesBetween_eq_count (t : Text) (brace : Char) (first last : Nat) :
    bracesBetween t brace first last
      = (((mark .code t).drop first).take (last + 1 - first)).count (brace, true) := by
  rw [← countP_getElem?, bracesBetween]
  refine List.countP_congr fun place _ => ?_
  simp only [decide_eq_true_eq, beq_iff_eq]
  exact getElem?_mark_iff.symm

theorem closes_iff_balances {t : Text} {opening : Nat}
    (h : (mark .code t)[opening]? = some ('{', true)) (n : Nat) :
    Closes t opening (opening + 1 + n) ↔ Balances 1 (mark .code (t.drop (opening + 1))) n := by
  have hbrace := (getElem?_mark_iff.mp h).1
  obtain ⟨hlt, hchar⟩ := List.getElem?_eq_some_iff.mp hbrace
  have hmarks : (mark .code t).drop opening = ('{', true) :: mark .code (t.drop (opening + 1)) := by
    rw [drop_mark h, List.drop_eq_getElem_cons hlt, hchar]
    rfl
  have hplace : (mark .code t)[opening + 1 + n]? = (mark .code (t.drop (opening + 1)))[n]? := by
    rw [Nat.add_assoc, ← List.getElem?_drop, hmarks, Nat.add_comm 1, List.getElem?_cons_succ]
  have hcount : ∀ brace, bracesBetween t brace opening (opening + 1 + n)
      = (('{', true) :: (mark .code (t.drop (opening + 1))).take (n + 1)).count (brace, true) := by
    intro brace
    have hlength : opening + 1 + n + 1 - opening = n + 1 + 1 := by omega
    rw [bracesBetween_eq_count, hmarks, hlength, List.take_succ_cons]
  have hbalanced : bracesBetween t '{' opening (opening + 1 + n)
        = bracesBetween t '}' opening (opening + 1 + n)
      ↔ 1 + ((mark .code (t.drop (opening + 1))).take (n + 1)).count ('{', true)
        = ((mark .code (t.drop (opening + 1))).take (n + 1)).count ('}', true) := by
    rw [hcount, hcount, List.count_cons_self, List.count_cons_of_ne (by decide), Nat.add_comm]
  rw [Balances, ← hplace, getElem?_mark_iff, ← hbalanced]
  exact ⟨fun hcloses => ⟨⟨hcloses.brace, hcloses.code⟩, hcloses.balanced⟩,
    fun ⟨⟨hclose, hcode⟩, heq⟩ => ⟨by omega, hclose, hcode, heq⟩⟩

theorem findsFirst_closes {t : Text} {opening : Nat}
    (h : (mark .code t)[opening]? = some ('{', true)) :
    FindsFirst ((closingBrace? (t.drop (opening + 1))).map (opening + 1 + ·)) (Closes t opening) :=
  (findsFirst_closingFrom? Nat.one_pos _).add (fun _ hcloses => hcloses.behind)
    (closes_iff_balances h)

theorem Closing.ofOption_eq_found_iff {o : Option Nat} {place : Nat} :
    Closing.ofOption o = .found place ↔ o = some place := by
  cases o <;> simp [Closing.ofOption]

theorem Closing.ofOption_eq_missing_iff {o : Option Nat} :
    Closing.ofOption o = .missing ↔ o = none := by
  cases o <;> simp [Closing.ofOption]

theorem Closing.ofOption_ne_underflow (o : Option Nat) : Closing.ofOption o ≠ .underflow := by
  cases o <;> simp [Closing.ofOption]

theorem matchingBrace_eq_ofOption {t : Text} {opening : Nat} (h : t[opening]? = some '{') :
    matchingBrace t opening
      = .ofOption ((closingBrace? (t.drop (opening + 1))).map (opening + 1 + ·)) := by
  obtain ⟨hlt, hbrace⟩ := List.getElem?_eq_some_iff.mp h
  rw [matchingBrace, matchFrom, dif_pos hlt, if_pos hbrace, matchFrom_eq_ofOption Nat.one_pos]
  rfl

/-- **Both scanners agree on the closing brace.** From an open brace in code the walk comes to the
first place at which the braces in code balance, as told from the start of the text; it comes to no
place exactly if there is none; and on no text does a brace close before one is open. It is the
brace that the marks behind the open one give. -/
theorem matchingBrace_eq_found_iff {t : Text} {opening : Nat} (hbrace : t[opening]? = some '{')
    (hcode : isOutside t opening = true) :
    (∀ place, matchingBrace t opening = .found place ↔ First (Closes t opening) place)
      ∧ (matchingBrace t opening = .missing ↔ ∀ place, ¬ Closes t opening place)
      ∧ matchingBrace t opening ≠ .underflow
      ∧ (∀ place < t.length, isOutside t place = isCodeAt t place)
      ∧ matchingBrace t opening
        = .ofOption ((closingBrace? (t.drop (opening + 1))).map (opening + 1 + ·)) := by
  have hfinds := findsFirst_closes (getElem?_mark_iff.mpr ⟨hbrace, hcode⟩)
  rw [matchingBrace_eq_ofOption hbrace]
  refine ⟨fun place => ?_, ?_, Closing.ofOption_ne_underflow _,
    fun place => isOutside_eq_isCodeAt, rfl⟩
  · rw [Closing.ofOption_eq_found_iff, hfinds.eq_some_iff]
  · rw [Closing.ofOption_eq_missing_iff]
    refine ⟨hfinds.none, fun hnone => Option.eq_none_iff_forall_ne_some.mpr fun place hplace => ?_⟩
    exact hnone place (hfinds.some place hplace).1

/-- A table with braces in a string and in a comment, and a quote without a partner behind it. -/
def bracedTable : Text := "t = \x7b'\x7d': \x7b\x7d, // \x7d\n\x7d; '\\".toList

theorem matchingBrace_eq_found_iff_bracedTable :
    bracedTable[4]? = some '{' ∧ isOutside bracedTable 4 = true
      ∧ First (Closes bracedTable 4) 19 ∧ matchingBrace bracedTable 4 = .found 19 := by
  have hbrace : bracedTable[4]? = some '{' := by decide
  have hcode : isOutside bracedTable 4 = true :=
    (isOutside_eq_isCodeAt (by decide)).trans (by decide)
  obtain ⟨hfound, -, -, -, hsame⟩ := matchingBrace_eq_found_iff hbrace hcode
  have hplace : matchingBrace bracedTable 4 = .found 19 := hsame.trans (by decide)
  exact ⟨hbrace, hcode, (hfound 19).mp hplace, hplace⟩

end CanvasFlutter.Scanner
