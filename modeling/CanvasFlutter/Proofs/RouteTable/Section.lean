import CanvasFlutter.Proofs.Text.Lines
import CanvasFlutter.RouteTable.Document

namespace CanvasFlutter.Section

/-!
# `CanvasFlutter.Proofs.RouteTable.Section` — reading the section of directives

The lines of a routes file fall into stretches: blank lines, comments and statements, each with the
lines it stands on. The section is the stretches up to the last statement; in the lines after it no
statement ends. This cut is the whole meaning of `readDirectives`.

## Contents
- **Reading.** `Reading.next`: where the reader is after a line; `noneEnds`: lines in which no
  statement ends; `leavesInside`: lines that end within a statement.
- **Stretches.** `Stretch`, its lines, the entry it gives and when it is `Valid`.
- **Cut.** `exists_cut`: every list of lines is cut; `readDirectives_of_cut`: the entries of the
  cut are what is read.
-/

/-! ## Reading -/

/-- Where the reader of a section is. -/
inductive Reading where
  /-- Between statements. -/
  | between
  /-- In a statement that is not ended. -/
  | inside
  /-- Past a line that is none of the section. -/
  | past
  deriving DecidableEq, Repr

/-- Whether a statement ends with this line. -/
def Reading.ends (r : Reading) (line : Text) : Bool :=
  match r with
  | between => isDirectiveStart (Text.trim line) && endsStatement (Text.trim line)
  | inside => endsStatement (Text.trim line)
  | past => false

/-- Where the reader is after a line. -/
def Reading.next (r : Reading) (line : Text) : Reading :=
  match r with
  | between =>
      if Text.isBlank line then between
      else if isDirectiveStart (Text.trim line) then
        if endsStatement (Text.trim line) then between else inside
      else if isComment (Text.trim line) then between
      else past
  | inside => if endsStatement (Text.trim line) then between else inside
  | past => past

/-- Whether no statement ends in these lines. -/
def noneEnds : Reading → List Text → Bool
  | _, [] => true
  | r, line :: rest => !r.ends line && noneEnds (r.next line) rest

/-- Whether the reader is within a statement when it stops. -/
def leavesInside (lines : List Text) : Bool := lines.foldl Reading.next .between = .inside

theorem noneEnds_append (r : Reading) (a b : List Text) :
    noneEnds r (a ++ b) = (noneEnds r a && noneEnds (a.foldl Reading.next r) b) := by
  induction a generalizing r with
  | nil => rfl
  | cons line a ih => simp [noneEnds, ih, Bool.and_assoc]

@[simp] theorem noneEnds_past (lines : List Text) : noneEnds .past lines = true := by
  induction lines with
  | nil => rfl
  | cons line lines ih => simpa [noneEnds, Reading.ends, Reading.next] using ih

theorem noneEnds_inside_iff (lines : List Text) :
    noneEnds .inside lines = true ↔ ∀ line ∈ lines, endsStatement (Text.trim line) = false := by
  induction lines with
  | nil => simp [noneEnds]
  | cons line lines ih =>
      cases h : endsStatement (Text.trim line) <;>
        simp [noneEnds, Reading.ends, Reading.next, h, ih]

/-- While no statement ends, the reader stays in it. -/
theorem foldl_next_inside {lines : List Text}
    (h : ∀ line ∈ lines, endsStatement (Text.trim line) = false) :
    lines.foldl Reading.next .inside = .inside := by
  induction lines with
  | nil => rfl
  | cons line lines ih =>
      rw [List.foldl_cons, Reading.next, h line (by simp)]
      exact ih fun l hl => h l (by simp [hl])

/-! ## Stretches -/

/-- Lines of a section that belong together. -/
inductive Stretch where
  | blank (line : Text)
  | comment (line : Text)
  | statement (first : Text) (more : List Text)
  deriving DecidableEq, Repr

namespace Stretch

/-- The lines of a stretch. -/
def lines : Stretch → List Text
  | blank line => [line]
  | comment line => [line]
  | statement first more => first :: more

/-- The entry that a stretch gives. -/
def directive? : Stretch → Option Directive
  | blank _ => none
  | comment line => some (.comment (Text.trim line))
  | statement first more =>
      some (.statement (Text.trim first ++ more.flatMap fun line => '\n' :: Text.trim line))

/-- The last line of a statement ends it, and no other does. -/
def ClosesLast (lines : List Text) : Prop :=
  ∃ open' last, lines = open' ++ [last] ∧ endsStatement (Text.trim last) = true ∧
    ∀ line ∈ open', endsStatement (Text.trim line) = false

/-- Whether the lines are what the stretch says. -/
def Valid : Stretch → Prop
  | blank line => Text.isBlank line = true
  | comment line => Text.isBlank line = false ∧ isDirectiveStart (Text.trim line) = false ∧
      isComment (Text.trim line) = true
  | statement first more => isDirectiveStart (Text.trim first) = true ∧ ClosesLast (first :: more)

/-- Whether a stretch is a statement. -/
def isStatement : Stretch → Bool
  | statement _ _ => true
  | _ => false

end Stretch

/-- The lines of stretches. -/
def linesOf (stretches : List Stretch) : List Text := stretches.flatMap Stretch.lines

/-- The entries of stretches. -/
def entriesOf (stretches : List Stretch) : List Directive := stretches.filterMap Stretch.directive?

@[simp] theorem linesOf_cons (s : Stretch) (stretches : List Stretch) :
    linesOf (s :: stretches) = s.lines ++ linesOf stretches := rfl

@[simp] theorem linesOf_append (a b : List Stretch) : linesOf (a ++ b) = linesOf a ++ linesOf b :=
  List.flatMap_append

@[simp] theorem entriesOf_cons (s : Stretch) (stretches : List Stretch) :
    entriesOf (s :: stretches) = s.directive?.toList ++ entriesOf stretches := by
  cases h : s.directive? <;> simp [entriesOf, h]

@[simp] theorem entriesOf_append (a b : List Stretch) :
    entriesOf (a ++ b) = entriesOf a ++ entriesOf b :=
  List.filterMap_append

theorem entriesOf_ne_nil {stretches : List Stretch} (hne : stretches ≠ [])
    (h : ∀ s ∈ stretches.getLast?, s.isStatement = true) : entriesOf stretches ≠ [] := by
  obtain ⟨front, last, rfl⟩ : ∃ front last, stretches = front ++ [last] :=
    ⟨_, _, (List.dropLast_concat_getLast hne).symm⟩
  have hlast := h last (by simp)
  cases last with
  | blank line => simp [Stretch.isStatement] at hlast
  | comment line => simp [Stretch.isStatement] at hlast
  | statement first more => simp [Stretch.directive?]

/-- In front of the statement that closes a section there is a section, or nothing. -/
theorem closed_tail {s : Stretch} {stretches : List Stretch} (hs : s.isStatement = false)
    (h : ∀ t ∈ (s :: stretches).getLast?, t.isStatement = true) :
    stretches ≠ [] ∧ ∀ t ∈ stretches.getLast?, t.isStatement = true := by
  cases stretches with
  | nil => simp [hs] at h
  | cons t stretches => exact ⟨by simp, by simpa using h⟩

/-- After a stretch the reader is between statements again. -/
theorem foldl_next_lines {s : Stretch} (h : s.Valid) :
    s.lines.foldl Reading.next .between = .between := by
  cases s with
  | blank line =>
      have hb : Text.isBlank line = true := h
      simp [Stretch.lines, Reading.next, hb]
  | comment line =>
      obtain ⟨hb, hd, hc⟩ := h
      simp [Stretch.lines, Reading.next, hb, hd, hc]
  | statement first more =>
      obtain ⟨hd, open', last, hlines, hlast, hopen⟩ := h
      have hb : Text.isBlank first = false := by
        cases hb : Text.isBlank first with
        | false => rfl
        | true => simp [Text.trim_of_isBlank hb, isDirectiveStart] at hd
      cases open' with
      | nil =>
          obtain ⟨rfl, rfl⟩ := List.cons.inj hlines
          simp [Stretch.lines, Reading.next, hb, hd, hlast]
      | cons line open' =>
          obtain ⟨rfl, rfl⟩ := List.cons.inj hlines
          have hinside := foldl_next_inside fun l hl => hopen l (List.mem_cons_of_mem first hl)
          simp [Stretch.lines, Reading.next, hb, hd, hopen first (by simp), hinside, hlast]

theorem foldl_next_linesOf {stretches : List Stretch} (h : ∀ s ∈ stretches, s.Valid) :
    (linesOf stretches).foldl Reading.next .between = .between := by
  induction stretches with
  | nil => rfl
  | cons s stretches ih =>
      rw [linesOf_cons, List.foldl_append, foldl_next_lines (h s (by simp)),
        ih fun t ht => h t (by simp [ht])]

theorem foldl_next_dropWhile_isBlank (lines : List Text) :
    (lines.dropWhile Text.isBlank).foldl Reading.next .between
      = lines.foldl Reading.next .between := by
  induction lines with
  | nil => rfl
  | cons line lines ih =>
      by_cases hb : Text.isBlank line = true
      · simpa [hb, Reading.next] using ih
      · simp [hb]

/-! ## What is read -/

theorem isEmpty_trim (line : Text) : (Text.trim line).isEmpty = Text.isBlank line := by
  rw [Bool.eq_iff_iff, List.isEmpty_iff, Text.trim_eq_nil_iff]

/-- A line that is no end of a statement counts only if an entry is read after it. -/
theorem readDirectives_none (line : Text) (rest : List Text) :
    readDirectives none (line :: rest) =
      let otherwise (read : List Directive × List Text) (first : Option Directive) :=
        if read.1.isEmpty then ([], line :: rest) else (first.toList ++ read.1, read.2)
      if Text.isBlank line then otherwise (readDirectives none rest) none
      else if isDirectiveStart (Text.trim line) then
        if endsStatement (Text.trim line) then
          (.statement (Text.trim line) :: (readDirectives none rest).1,
            (readDirectives none rest).2)
        else otherwise (readDirectives (some (Text.trim line)) rest) none
      else if isComment (Text.trim line) then
        otherwise (readDirectives none rest) (some (.comment (Text.trim line)))
      else ([], line :: rest) := by
  rw [readDirectives, isEmpty_trim]

theorem readDirectives_some (pending line : Text) (rest : List Text) :
    readDirectives (some pending) (line :: rest) =
      if endsStatement (Text.trim line) then
        (.statement (pending ++ '\n' :: Text.trim line) :: (readDirectives none rest).1,
          (readDirectives none rest).2)
      else readDirectives (some (pending ++ '\n' :: Text.trim line)) rest := by
  rw [readDirectives]

/-- Where no statement ends, no entry is read in a statement. -/
theorem readDirectives_some_of_noneEnds {lines : List Text}
    (h : ∀ line ∈ lines, endsStatement (Text.trim line) = false) (pending : Text) :
    (readDirectives (some pending) lines).1 = [] := by
  induction lines generalizing pending with
  | nil => rfl
  | cons line lines ih =>
      rw [readDirectives_some, h line (by simp)]
      exact ih (fun l hl => h l (by simp [hl])) _

/-- Where no statement ends, nothing belongs to a section. -/
theorem readDirectives_of_noneEnds {lines : List Text} (h : noneEnds .between lines = true) :
    readDirectives none lines = ([], lines) := by
  induction lines with
  | nil => rfl
  | cons line lines ih =>
      rw [readDirectives_none]
      simp only [noneEnds, Reading.ends, Reading.next, Bool.and_eq_true, Bool.not_eq_true'] at h
      obtain ⟨hline, hrest⟩ := h
      by_cases hb : Text.isBlank line = true
      · simp only [hb, if_true] at hrest ⊢
        simp [ih hrest]
      · by_cases hd : isDirectiveStart (Text.trim line) = true
        · have he : endsStatement (Text.trim line) = false := by simpa [hd] using hline
          simp only [hb, hd, he, if_true, Bool.false_eq_true, if_false] at hrest ⊢
          simp [readDirectives_some_of_noneEnds ((noneEnds_inside_iff lines).mp hrest)]
        · by_cases hc : isComment (Text.trim line) = true
          · simp only [hb, hd, hc, if_true, Bool.false_eq_true, if_false] at hrest ⊢
            simp [ih hrest]
          · simp [hb, hd, hc]

/-- The lines of a statement are read as one entry. -/
theorem readDirectives_some_closesLast {open' : List Text} {last : Text}
    (hopen : ∀ line ∈ open', endsStatement (Text.trim line) = false)
    (hlast : endsStatement (Text.trim last) = true) (pending : Text) (rest : List Text) :
    readDirectives (some pending) (open' ++ last :: rest) =
      (.statement (pending ++ (open' ++ [last]).flatMap fun line => '\n' :: Text.trim line)
        :: (readDirectives none rest).1, (readDirectives none rest).2) := by
  induction open' generalizing pending with
  | nil =>
      rw [List.nil_append, readDirectives_some, if_pos hlast]
      simp
  | cons line open' ih =>
      have hline := hopen line (by simp)
      rw [List.cons_append, readDirectives_some, hline, if_neg (by simp),
        ih fun l hl => hopen l (by simp [hl])]
      simp

/-- What is read of stretches and the lines after them. -/
theorem readDirectives_linesOf {stretches : List Stretch} {after : List Text}
    (valid : ∀ s ∈ stretches, s.Valid) (closed : ∀ s ∈ stretches.getLast?, s.isStatement = true)
    (ended : noneEnds .between after = true) :
    readDirectives none (linesOf stretches ++ after) = (entriesOf stretches, after) := by
  induction stretches with
  | nil => exact readDirectives_of_noneEnds ended
  | cons s stretches ih =>
      have hs := valid s (by simp)
      have hvalid : ∀ t ∈ stretches, t.Valid := fun t ht => valid t (by simp [ht])
      rw [linesOf_cons, List.append_assoc, entriesOf_cons]
      cases s with
      | blank line =>
          obtain ⟨hne, hclosed⟩ := closed_tail rfl closed
          have hentries := entriesOf_ne_nil hne hclosed
          have hblank : Text.isBlank line = true := hs
          rw [Stretch.lines, List.singleton_append, readDirectives_none, ih hvalid hclosed]
          simp [hblank, hentries, Stretch.directive?]
      | comment line =>
          obtain ⟨hne, hclosed⟩ := closed_tail rfl closed
          have hentries := entriesOf_ne_nil hne hclosed
          obtain ⟨hblank, hstart, hcomment⟩ := hs
          rw [Stretch.lines, List.singleton_append, readDirectives_none, ih hvalid hclosed]
          simp [hblank, hstart, hcomment, hentries, Stretch.directive?]
      | statement first more =>
          obtain ⟨hstart, open', last, hlines, hlast, hopen⟩ := hs
          have hblank : Text.isBlank first = false := by
            rw [← isEmpty_trim]
            cases htrim : Text.trim first with
            | nil => simp [htrim, isDirectiveStart] at hstart
            | cons c t => rfl
          have hclosed : ∀ t ∈ stretches.getLast?, t.isStatement = true := by
            intro t ht
            cases stretches with
            | nil => simp at ht
            | cons s stretches => exact closed t (by simpa using ht)
          cases open' with
          | nil =>
              obtain ⟨rfl, rfl⟩ := List.cons.inj hlines
              rw [Stretch.lines, List.singleton_append, readDirectives_none, ih hvalid hclosed]
              simp [hblank, hstart, hlast, Stretch.directive?]
          | cons line open' =>
              rw [List.cons_append] at hlines
              obtain ⟨rfl, rfl⟩ := List.cons.inj hlines
              have hfirst := hopen first (by simp)
              rw [Stretch.lines, List.cons_append, List.append_assoc, List.singleton_append,
                readDirectives_none,
                readDirectives_some_closesLast (fun l hl => hopen l (by simp [hl])) hlast,
                ih hvalid hclosed]
              simp [hblank, hstart, hfirst, Stretch.directive?]

/-! ## The cut -/

/-- Lines cut into a section and what follows it. -/
structure Cut (lines : List Text) where
  stretches : List Stretch
  after : List Text
  lines_eq : lines = linesOf stretches ++ after
  valid : ∀ s ∈ stretches, s.Valid
  /-- The section ends with a statement. -/
  closed : ∀ s ∈ stretches.getLast?, s.isStatement = true
  /-- No statement ends after the section. -/
  ended : noneEnds .between after = true

/-- Nothing of lines in which no statement ends. -/
def Cut.ofNoneEnds {lines : List Text} (h : noneEnds .between lines = true) : Cut lines where
  stretches := []
  after := lines
  lines_eq := rfl
  valid := by simp
  closed := by simp
  ended := h

/-- A cut of more lines, with a stretch before it that is no statement. Where nothing follows that
belongs to a section, neither does the stretch. -/
def Cut.cons {lines : List Text} (c : Cut lines) (s : Stretch) (hs : s.Valid)
    (hkeep : noneEnds .between (s.lines ++ lines) = noneEnds .between lines) :
    Cut (s.lines ++ lines) :=
  if h : c.stretches = [] then
    .ofNoneEnds (by rw [hkeep, c.lines_eq, h]; exact c.ended)
  else
    { stretches := s :: c.stretches
      after := c.after
      lines_eq := by rw [linesOf_cons, List.append_assoc, ← c.lines_eq]
      valid := by
        intro t ht
        rcases List.mem_cons.mp ht with rfl | ht
        · exact hs
        · exact c.valid t ht
      closed := by
        rw [List.getLast?_cons_of_ne_nil h]
        exact c.closed
      ended := c.ended }

/-- A cut of more lines, with a statement before it. -/
def Cut.consStatement {lines : List Text} (c : Cut lines) {first : Text} {more : List Text}
    (hs : (Stretch.statement first more).Valid) : Cut (first :: more ++ lines) where
  stretches := .statement first more :: c.stretches
  after := c.after
  lines_eq := by
    rw [linesOf_cons, List.append_assoc, ← c.lines_eq]
    rfl
  valid := by
    intro t ht
    rcases List.mem_cons.mp ht with rfl | ht
    · exact hs
    · exact c.valid t ht
  closed := by
    intro t ht
    by_cases h : c.stretches = []
    · obtain rfl : Stretch.statement first more = t := by simpa [h] using ht
      rfl
    · exact c.closed t (by rwa [List.getLast?_cons_of_ne_nil h] at ht)
  ended := c.ended

/-- Lines in which no statement ends, or lines up to the first one that ends a statement. -/
theorem exists_closesLast (lines : List Text) :
    (∀ line ∈ lines, endsStatement (Text.trim line) = false) ∨
      ∃ open' last rest, lines = open' ++ last :: rest ∧ endsStatement (Text.trim last) = true ∧
        ∀ line ∈ open', endsStatement (Text.trim line) = false := by
  induction lines with
  | nil => exact .inl (by simp)
  | cons line lines ih =>
      cases h : endsStatement (Text.trim line) with
      | true => exact .inr ⟨[], line, lines, rfl, h, by simp⟩
      | false =>
          rcases ih with hall | ⟨open', last, rest, rfl, hlast, hopen⟩
          · exact .inl (List.forall_mem_cons.mpr ⟨h, hall⟩)
          · exact .inr ⟨line :: open', last, rest, rfl, hlast, List.forall_mem_cons.mpr ⟨h, hopen⟩⟩

/-- All lines can be cut. -/
theorem exists_cut (lines : List Text) : Nonempty (Cut lines) := by
  obtain ⟨n, hn⟩ : ∃ n, lines.length = n := ⟨_, rfl⟩
  -- A statement takes several lines, so the induction is on their number.
  induction n using Nat.strongRecOn generalizing lines with
  | _ n ih =>
  cases lines with
  | nil => exact ⟨.ofNoneEnds rfl⟩
  | cons line rest =>
      obtain ⟨c⟩ := ih rest.length (by subst hn; simp) rest rfl
      by_cases hb : Text.isBlank line = true
      · exact ⟨c.cons (.blank line) hb (by
          simp [Stretch.lines, noneEnds, Reading.ends, Reading.next, hb, Text.trim_of_isBlank hb,
            isDirectiveStart])⟩
      · by_cases hd : isDirectiveStart (Text.trim line) = true
        · rcases exists_closesLast (line :: rest) with
            hall | ⟨open', last, after, hlines, hlast, hopen⟩
          · have hinside := (noneEnds_inside_iff _).mpr fun l hl =>
              hall l (List.mem_cons_of_mem line hl)
            exact ⟨.ofNoneEnds (by
              simp [noneEnds, Reading.ends, Reading.next, hb, hd, hall line (by simp), hinside])⟩
          · -- The statement begins with this line, so its lines are not empty.
            have hlen : after.length < n := by
              have := congrArg List.length hlines
              simp only [List.length_append, List.length_cons] at this hn
              omega
            obtain ⟨c⟩ := ih after.length hlen after rfl
            obtain ⟨first, more, hmore⟩ : ∃ first more, open' ++ [last] = first :: more := by
              cases open' <;> simp
            have hall : line :: rest = first :: more ++ after := by
              rw [hlines, ← hmore, List.append_assoc]
              rfl
            obtain ⟨rfl, -⟩ := List.cons.inj (hall.trans (List.cons_append ..))
            rw [hall]
            exact ⟨c.consStatement ⟨hd, open', last, hmore.symm, hlast, hopen⟩⟩
        · by_cases hc : isComment (Text.trim line) = true
          · exact ⟨c.cons (.comment line) ⟨by simpa using hb, by simpa using hd, hc⟩ (by
              simp [Stretch.lines, noneEnds, Reading.ends, Reading.next, hb, hd, hc])⟩
          · exact ⟨.ofNoneEnds (by simp [noneEnds, Reading.ends, Reading.next, hb, hd, hc])⟩

/-- What is read of lines is what the cut says. -/
theorem readDirectives_of_cut {lines : List Text} (c : Cut lines) :
    readDirectives none lines = (entriesOf c.stretches, c.after) := by
  conv => lhs; rw [c.lines_eq]
  exact readDirectives_linesOf c.valid c.closed c.ended

end CanvasFlutter.Section
