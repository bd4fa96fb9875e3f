import CanvasFlutter.Proofs.RouteTable.Braces

namespace CanvasFlutter.Scanner

/-!
# `CanvasFlutter.Proofs.RouteTable.Balanced` — the grammar that the scanner reads

The scanner knows strings between two quotes, in which a backslash takes the next character along,
comments that end with their line, and comments that end at the first `*/`. A text is balanced if
its braces are, outside of these. The brace that closes is found exactly behind a balanced text.

## Contents
- **Code.** `closingFrom?_code` and what each brace does to the depth.
- **Strings.** `exists_string_or_none`.
- **Comments.** `closingFrom?_lineComment`, `closingFrom?_blockComment`, and when none ends.
- **Balance.** `Balanced`; `closingBrace?_eq_some_iff`.
-/

variable {depth : Nat}

/-! ## Code -/

/-- In code every character but a brace is passed over. -/
theorem closingFrom?_code {c : Char} (hopen : c ≠ '{') (hclose : c ≠ '}') (t : Text) :
    closingFrom? depth (mark .code (c :: t))
      = (closingFrom? depth (mark (State.code.next c t.head?) t)).map (· + 1) := by
  rw [mark, closingFrom?]
  simp [hopen, hclose]

theorem closingFrom?_opening (t : Text) :
    closingFrom? depth (mark .code ('{' :: t))
      = (closingFrom? (depth + 1) (mark .code t)).map (· + 1) := rfl

theorem closingFrom?_closing (t : Text) :
    closingFrom? (depth + 2) (mark .code ('}' :: t))
      = (closingFrom? (depth + 1) (mark .code t)).map (· + 1) := rfl

theorem closingFrom?_closing_one (t : Text) : closingFrom? 1 (mark .code ('}' :: t)) = some 0 := rfl

theorem map_add_congr {o : Option Nat} {m n : Nat} (h : m = n) : o.map (· + m) = o.map (· + n) := by
  rw [h]

/-! ## Strings -/

/-- A string ends, or nothing is found behind where it begins. -/
theorem exists_string_or_none (quote : Char) (escaped : Bool) (t : Text) :
    (∃ body rest, t = body ++ quote :: rest ∧ staysIn quote escaped body = true)
      ∨ ∀ depth, closingFrom? depth (mark (State.inString quote escaped) t) = none := by
  induction t generalizing escaped with
  | nil => exact .inr fun _ => rfl
  | cons c t ih =>
      -- A character that does not close the string is put in front of what the rest comes to.
      have hlater : ∀ next : Bool, (∀ following,
          (State.inString quote escaped).next c following = State.inString quote next) →
          (∀ body, staysIn quote next body = true → staysIn quote escaped (c :: body) = true) →
          (∃ body rest, c :: t = body ++ quote :: rest ∧ staysIn quote escaped body = true)
            ∨ ∀ depth, closingFrom? depth (mark (State.inString quote escaped) (c :: t)) = none := by
        intro next hnext hbody
        rcases ih next with ⟨body, rest, rfl, hstays⟩ | hnone
        · exact .inl ⟨c :: body, rest, rfl, hbody body hstays⟩
        · right
          intro depth
          rw [closingFrom?_cons (inString_ne_code quote escaped), hnext, hnone]
          rfl
      cases escaped with
      | true => exact hlater false (next_escaped quote c) fun _ h => h
      | false =>
          by_cases hc : c = quote
          · exact .inl ⟨[], t, by rw [hc]; rfl, rfl⟩
          · refine hlater (c == '\\') (next_quoted hc) fun body h => ?_
            rw [staysIn, h, Bool.and_true]
            exact bne_iff_ne.mpr hc

/-! ## Comments -/

theorem next_lineComment {c : Char} (hc : c ≠ '\n') (following : Option Char) :
    State.lineComment.next c following = .lineComment := if_neg hc

/-- A comment is passed over to the end of its line. -/
theorem closingFrom?_lineComment {body : Text} (h : '\n' ∉ body) (t : Text) :
    closingFrom? depth (mark .lineComment (body ++ '\n' :: t))
      = (closingFrom? depth (mark .code t)).map (· + (body.length + 1)) := by
  induction body with
  | nil => rfl
  | cons c body ih =>
      obtain ⟨hc, hbody⟩ := not_or.mp (mt List.mem_cons.mpr h)
      rw [List.cons_append, closingFrom?_cons State.noConfusion, next_lineComment (Ne.symm hc),
        ih hbody, map_add_add]
      rfl

theorem closingFrom?_lineComment_eq_none {t : Text} (h : '\n' ∉ t) :
    closingFrom? depth (mark .lineComment t) = none := by
  induction t with
  | nil => rfl
  | cons c t ih =>
      obtain ⟨hc, ht⟩ := not_or.mp (mt List.mem_cons.mpr h)
      rw [closingFrom?_cons State.noConfusion, next_lineComment (Ne.symm hc), ih ht]
      rfl

/-- A comment goes on over a character with which no `*/` begins. -/
theorem next_blockComment {c : Char} {t : Text} (h : ¬ ['*', '/'] <+: c :: t) :
    State.blockComment.next c t.head? = .blockComment := by
  refine if_neg ?_
  rintro ⟨rfl, hslash⟩
  obtain ⟨t', rfl⟩ := List.head?_eq_some_iff.mp hslash
  exact h ⟨t', rfl⟩

/-- A comment is passed over to its first `*/`. -/
theorem closingFrom?_blockComment {body : Text} (h : ¬ ['*', '/'] <:+: body) (t : Text) :
    closingFrom? depth (mark .blockComment (body ++ '*' :: '/' :: t))
      = (closingFrom? depth (mark .code t)).map (· + (body.length + 2)) := by
  induction body with
  | nil =>
      rw [List.nil_append, closingFrom?_cons State.noConfusion]
      have hnext : State.blockComment.next '*' ('/' :: t).head? = .blockClosing := rfl
      rw [hnext, closingFrom?_cons State.noConfusion, map_add_add]
      rfl
  | cons c body ih =>
      have hfirst : ¬ ['*', '/'] <+: c :: (body ++ '*' :: '/' :: t) := by
        intro hstart
        obtain ⟨rfl, hslash⟩ := List.cons_prefix_cons.mp hstart
        cases body with
        | nil => simp at hslash
        | cons d body =>
            obtain ⟨rfl, -⟩ := List.cons_prefix_cons.mp hslash
            exact h ⟨[], body, rfl⟩
      have hbody : ¬ ['*', '/'] <:+: body := fun hinfix => h (List.infix_cons hinfix)
      rw [List.cons_append, closingFrom?_cons State.noConfusion, next_blockComment hfirst, ih hbody,
        map_add_add]
      rfl

/-- A comment ends, or nothing is found behind where it begins. -/
theorem exists_blockComment_or_none (t : Text) :
    (∃ body rest, t = body ++ '*' :: '/' :: rest ∧ ¬ ['*', '/'] <:+: body)
      ∨ ∀ depth, closingFrom? depth (mark .blockComment t) = none := by
  induction t with
  | nil => exact .inr fun _ => rfl
  | cons c t ih =>
      by_cases hfirst : ['*', '/'] <+: c :: t
      · obtain ⟨rest, hrest⟩ := hfirst
        exact .inl ⟨[], rest, hrest.symm, by simp⟩
      · rcases ih with ⟨body, rest, rfl, hbody⟩ | hnone
        · refine .inl ⟨c :: body, rest, rfl, fun hinfix => ?_⟩
          rcases List.infix_cons_iff.mp hinfix with hstart | hinfix
          · exact hfirst (hstart.trans (List.prefix_append (c :: body) _))
          · exact hbody hinfix
        · right
          intro depth
          rw [closingFrom?_cons State.noConfusion, next_blockComment hfirst, hnone]
          rfl

/-! ## Balance -/

/-- Every brace that the text opens is closed in it and no other is, outside of strings and
comments. -/
inductive Balanced : Text → Prop
  | nil : Balanced []
  /-- A character of code; no comment begins with it. -/
  | other {c : Char} {t : Text} (hc : c ∉ ['\'', '"', '{', '}'])
      (hslash : c = '/' → ∀ d ∈ t.head?, d ≠ '/' ∧ d ≠ '*') (ht : Balanced t) : Balanced (c :: t)
  | string {quote : Char} {body t : Text} (hquote : quote = '\'' ∨ quote = '"')
      (hbody : staysIn quote false body = true) (ht : Balanced t) :
      Balanced (quote :: (body ++ quote :: t))
  | lineComment {body t : Text} (hbody : '\n' ∉ body) (ht : Balanced t) :
      Balanced ('/' :: '/' :: (body ++ '\n' :: t))
  | blockComment {body t : Text} (hbody : ¬ ['*', '/'] <:+: body) (ht : Balanced t) :
      Balanced ('/' :: '*' :: (body ++ '*' :: '/' :: t))
  | braces {s t : Text} (hs : Balanced s) (ht : Balanced t) : Balanced ('{' :: (s ++ '}' :: t))

theorem next_code_quote {quote : Char} (h : quote = '\'' ∨ quote = '"') (following : Option Char) :
    State.code.next quote following = State.inString quote false := if_pos h

theorem next_code_other {c : Char} {following : Option Char} (hc : c ∉ ['\'', '"', '{', '}'])
    (hslash : c = '/' → ∀ d ∈ following, d ≠ '/' ∧ d ≠ '*') :
    State.code.next c following = .code := by
  have hquote : ¬ (c = '\'' ∨ c = '"') := by
    rintro (rfl | rfl)
    · exact hc (by decide)
    · exact hc (by decide)
  have hline : ¬ (c = '/' ∧ following = some '/') := by
    rintro ⟨rfl, rfl⟩
    exact (hslash rfl '/' rfl).1 rfl
  have hblock : ¬ (c = '/' ∧ following = some '*') := by
    rintro ⟨rfl, rfl⟩
    exact (hslash rfl '*' rfl).2 rfl
  simp only [State.next, if_neg hquote, if_neg hline, if_neg hblock]

theorem closingFrom?_string {quote : Char} (h : quote = '\'' ∨ quote = '"') (t : Text) :
    closingFrom? depth (mark .code (quote :: t))
      = (closingFrom? depth (mark (State.inString quote false) t)).map (· + 1) := by
  rw [closingFrom?_code, next_code_quote h]
  · rcases h with rfl | rfl <;> decide
  · rcases h with rfl | rfl <;> decide

theorem closingFrom?_slash_slash (t : Text) :
    closingFrom? depth (mark .code ('/' :: '/' :: t))
      = (closingFrom? depth (mark .lineComment t)).map (· + 2) := by
  have hfirst : State.code.next '/' ('/' :: t).head? = .lineComment := rfl
  have hsecond : State.lineComment.next '/' t.head? = .lineComment := rfl
  rw [closingFrom?_code (by decide) (by decide), hfirst, closingFrom?_cons State.noConfusion, hsecond,
    map_add_add]

theorem closingFrom?_slash_star (t : Text) :
    closingFrom? depth (mark .code ('/' :: '*' :: t))
      = (closingFrom? depth (mark .blockComment t)).map (· + 2) := by
  have hfirst : State.code.next '/' ('*' :: t).head? = .blockOpening := rfl
  have hsecond : State.blockOpening.next '*' t.head? = .blockComment := rfl
  rw [closingFrom?_code (by decide) (by decide), hfirst, closingFrom?_cons State.noConfusion, hsecond,
    map_add_add]

/-- A balanced text is passed over to the brace behind it. -/
theorem Balanced.closingFrom? {s : Text} (h : Balanced s) (depth : Nat) (t : Text) :
    Scanner.closingFrom? (depth + 1) (mark .code (s ++ '}' :: t))
      = (Scanner.closingFrom? (depth + 1) (mark .code ('}' :: t))).map (· + s.length) := by
  induction h generalizing depth t with
  | nil => simp
  | @other c s hc hslash _ ih =>
      -- The brace behind the text may be what follows, but no comment begins with it.
      have hfollowing : c = '/' → ∀ d ∈ (s ++ '}' :: t).head?, d ≠ '/' ∧ d ≠ '*' := by
        intro heq d hd
        cases s with
        | nil =>
            obtain rfl : '}' = d := Option.some.inj hd
            decide
        | cons e s => exact hslash heq d hd
      have hopen : c ≠ '{' := fun heq => hc (by simp [heq])
      have hclose : c ≠ '}' := fun heq => hc (by simp [heq])
      rw [List.cons_append, closingFrom?_code hopen hclose, next_code_other hc hfollowing, ih,
        map_add_add]
      rfl
  | @string quote body s hquote hbody _ ih =>
      rw [List.cons_append, List.append_assoc, List.cons_append, closingFrom?_string hquote,
        closingFrom?_inString hbody, ih, map_add_add, map_add_add]
      refine map_add_congr ?_
      simp only [List.length_cons, List.length_append]
      omega
  | @lineComment body s hbody _ ih =>
      rw [List.cons_append, List.cons_append, List.append_assoc, List.cons_append,
        closingFrom?_slash_slash, closingFrom?_lineComment hbody, ih, map_add_add, map_add_add]
      refine map_add_congr ?_
      simp only [List.length_cons, List.length_append]
      omega
  | @blockComment body s hbody _ ih =>
      rw [List.cons_append, List.cons_append, List.append_assoc, List.cons_append, List.cons_append,
        closingFrom?_slash_star, closingFrom?_blockComment hbody, ih, map_add_add, map_add_add]
      refine map_add_congr ?_
      simp only [List.length_cons, List.length_append]
      omega
  | @braces s u _ _ ihs ihu =>
      rw [List.cons_append, List.append_assoc, List.cons_append, closingFrom?_opening, ihs,
        closingFrom?_closing, ihu, map_add_add, map_add_add, map_add_add]
      refine map_add_congr ?_
      simp only [List.length_cons, List.length_append]
      omega

/-- A string, a comment or another character but a brace is passed over and may stand in front of
what is balanced, or nothing is found behind where it begins. -/
theorem exists_passed_or_none {c : Char} (hopen : c ≠ '{') (hclose : c ≠ '}') (t : Text) :
    (∃ passed rest, c :: t = passed ++ rest ∧ passed ≠ []
        ∧ (∀ depth, closingFrom? depth (mark .code (c :: t))
            = (closingFrom? depth (mark .code rest)).map (· + passed.length))
        ∧ ∀ s u, rest = s ++ '}' :: u → Balanced s → Balanced (passed ++ s))
      ∨ ∀ depth, closingFrom? depth (mark .code (c :: t)) = none := by
  -- The scanner asks for a string first, then for a comment up to the end of its line, then for the
  -- other kind of comment; what is none of these is passed over by itself.
  by_cases hquote : c = '\'' ∨ c = '"'
  · rcases exists_string_or_none c false t with ⟨body, rest, rfl, hbody⟩ | hnone
    · refine .inl ⟨c :: (body ++ [c]), rest, by simp, List.cons_ne_nil _ _, fun depth => ?_,
        fun s _ _ hs => ?_⟩
      · rw [closingFrom?_string hquote, closingFrom?_inString hbody, map_add_add]
        exact map_add_congr (by simp)
      · rw [List.cons_append, List.append_assoc]
        exact .string hquote hbody hs
    · refine .inr fun depth => ?_
      rw [closingFrom?_string hquote, hnone]
      rfl
  by_cases hline : c = '/' ∧ t.head? = some '/'
  · obtain ⟨rfl, hhead⟩ := hline
    obtain ⟨t, rfl⟩ := List.head?_eq_some_iff.mp hhead
    by_cases hnewline : '\n' ∈ t
    · obtain ⟨body, rest, rfl, hbody⟩ := List.eq_append_cons_of_mem hnewline
      refine .inl ⟨'/' :: '/' :: (body ++ ['\n']), rest, by simp, List.cons_ne_nil _ _,
        fun depth => ?_, fun s _ _ hs => ?_⟩
      · rw [closingFrom?_slash_slash, closingFrom?_lineComment hbody, map_add_add]
        exact map_add_congr (by simp)
      · rw [List.cons_append, List.cons_append, List.append_assoc]
        exact .lineComment hbody hs
    · refine .inr fun depth => ?_
      rw [closingFrom?_slash_slash, closingFrom?_lineComment_eq_none hnewline]
      rfl
  by_cases hblock : c = '/' ∧ t.head? = some '*'
  · obtain ⟨rfl, hhead⟩ := hblock
    obtain ⟨t, rfl⟩ := List.head?_eq_some_iff.mp hhead
    rcases exists_blockComment_or_none t with ⟨body, rest, rfl, hbody⟩ | hnone
    · refine .inl ⟨'/' :: '*' :: (body ++ ['*', '/']), rest, by simp, List.cons_ne_nil _ _,
        fun depth => ?_, fun s _ _ hs => ?_⟩
      · rw [closingFrom?_slash_star, closingFrom?_blockComment hbody, map_add_add]
        exact map_add_congr (by simp)
      · rw [List.cons_append, List.cons_append, List.append_assoc]
        exact .blockComment hbody hs
    · refine .inr fun depth => ?_
      rw [closingFrom?_slash_star, hnone]
      rfl
  · have hc : c ∉ ['\'', '"', '{', '}'] := by simpa [hopen, hclose] using hquote
    have hslash : c = '/' → ∀ d ∈ t.head?, d ≠ '/' ∧ d ≠ '*' := by
      intro heq d hd
      constructor
      · rintro rfl
        exact hline ⟨heq, hd⟩
      · rintro rfl
        exact hblock ⟨heq, hd⟩
    refine .inl ⟨[c], t, rfl, List.cons_ne_nil _ _, fun depth => ?_, ?_⟩
    · rw [closingFrom?_code hopen hclose, next_code_other hc hslash]
      rfl
    · rintro s u rfl hs
      refine .other hc (fun heq d hd => hslash heq d ?_) hs
      cases s with
      | nil => cases hd
      | cons e s => exact hd

/-- What is found lies behind a balanced text. The induction is on the length, since what follows an
opening brace is taken apart twice: up to its own closing brace and from there on. -/
theorem exists_balanced {t : Text} (h : closingFrom? (depth + 1) (mark .code t) ≠ none) :
    ∃ s rest, t = s ++ '}' :: rest ∧ Balanced s := by
  obtain ⟨n, hn⟩ : ∃ n, t.length < n := ⟨_, Nat.lt_succ_self _⟩
  have hmap : ∀ {o : Option Nat} {m : Nat}, o.map (· + m) ≠ none → o ≠ none :=
    fun hne heq => hne (by rw [heq]; rfl)
  induction n generalizing t depth with
  | zero => exact absurd hn (Nat.not_lt_zero _)
  | succ n ih =>
      cases t with
      | nil => exact absurd rfl h
      | cons c t =>
          by_cases hopen : c = '{'
          · subst hopen
            rw [closingFrom?_opening] at h
            obtain ⟨s, rest, rfl, hs⟩ := ih (hmap h) (Nat.lt_of_succ_lt_succ hn)
            rw [hs.closingFrom?, closingFrom?_closing] at h
            have hrest : rest.length < n := by
              simp only [List.length_cons, List.length_append] at hn
              omega
            obtain ⟨u, rest, rfl, hu⟩ := ih (hmap (hmap (hmap h))) hrest
            exact ⟨'{' :: (s ++ '}' :: u), rest, by simp, .braces hs hu⟩
          by_cases hclose : c = '}'
          · exact ⟨[], t, by rw [hclose]; rfl, .nil⟩
          · rcases exists_passed_or_none hopen hclose t with
              ⟨passed, rest, heq, hne, hpassed, hbalanced⟩ | hnone
            · rw [hpassed] at h
              have hrest : rest.length < n := by
                have hpos := List.length_pos_iff.mpr hne
                rw [heq, List.length_append] at hn
                omega
              obtain ⟨s, u, rfl, hs⟩ := ih (hmap h) hrest
              exact ⟨passed ++ s, u, by rw [heq, List.append_assoc], hbalanced s u rfl hs⟩
            · exact absurd (hnone _) h

/-- **The brace that closes is found exactly behind a balanced text.** -/
theorem closingBrace?_eq_some_iff {t : Text} {n : Nat} :
    closingBrace? t = some n ↔ ∃ s rest, t = s ++ '}' :: rest ∧ s.length = n ∧ Balanced s := by
  have hbalanced : ∀ {s rest : Text}, Balanced s → closingBrace? (s ++ '}' :: rest) = some s.length :=
    fun hs => by
      rw [closingBrace?, hs.closingFrom? 0, closingFrom?_closing_one, Option.map_some, Nat.zero_add]
  constructor
  · intro h
    have hfound : closingFrom? (0 + 1) (mark .code t) ≠ none := fun hnone => by
      rw [closingBrace?, hnone] at h
      cases h
    obtain ⟨s, rest, rfl, hs⟩ := exists_balanced hfound
    rw [hbalanced hs] at h
    exact ⟨s, rest, rfl, Option.some.inj h, hs⟩
  · rintro ⟨s, rest, rfl, rfl, hs⟩
    exact hbalanced hs

end CanvasFlutter.Scanner
