import CanvasFlutter.Proofs.Dart.Token

namespace CanvasFlutter.Dart

/-!
# `CanvasFlutter.Proofs.Dart.Spelling` — tokens and the text they stand in

A text that is read is its tokens with white space around them, so nothing else of it is passed
over. No token goes on beyond the end of a line, a string literal neither.

## Contents
- **Spelling.** `Token.source`, `Spelled`; `spelled_of_tokens?`.
- **Lines.** `noBreak_of_tokens?`.
-/

/-! ## Spelling -/

/-- The source of a token. -/
def Token.source : Token → Text
  | .word source => source
  | .number source => source
  | .string source => source
  | .mark source => source

/-- A text that is these tokens with white space around them. -/
inductive Spelled : List Token → Text → Prop where
  | space {s : Text} (h : ∀ c ∈ s, Lexer.isSpace c = true) : Spelled [] s
  | token {s rest : Text} {ts : List Token} (h : ∀ c ∈ s, Lexer.isSpace c = true) (t : Token)
      (hrest : Spelled ts rest) : Spelled (t :: ts) (s ++ (t.source ++ rest))

namespace Lexer

theorem Spelled.begins {ts : List Token} {s : Text} (h : Spelled ts s) (t : Token) :
    Spelled (t :: ts) (t.source ++ s) := .token (s := []) (by simp) t h

theorem Spelled.spaced {ts : List Token} {s : Text} (h : Spelled ts s) {c : Char}
    (hc : isSpace c = true) : Spelled ts (c :: s) := by
  cases h with
  | space hs => exact .space (List.forall_mem_cons.mpr ⟨hc, hs⟩)
  | token hs t hrest => exact .token (s := c :: _) (List.forall_mem_cons.mpr ⟨hc, hs⟩) t hrest

/-- What has been read of the token that the reader is in the middle of. -/
def Mode.source : Mode → Text
  | .between => []
  | .word source => source
  | .number _ source => source
  | .quoted source => source
  | .escaped source => source
  | .closed source => source
  | .mark source => source

variable {mode next : Mode} {c : Char}

theorem source_of_goOn? (h : mode.goOn? c = some next) : next.source = mode.source ++ [c] := by
  cases mode with
  | number stage source =>
      obtain ⟨stage', -, rfl⟩ := Option.map_eq_some_iff.mp h
      rfl
  | _ =>
      simp only [Mode.goOn?] at h
      grind [Mode.source]

theorem source_of_begin? (h : begin? c = some next) :
    next.source = [c] ∨ isSpace c = true ∧ next = .between := by
  unfold begin? at h
  grind [Mode.source]

theorem source_of_tokens? {tokens : List Token} (h : mode.tokens? = some tokens) :
    tokens = [] ∧ mode.source = [] ∨ ∃ t, tokens = [t] ∧ t.source = mode.source := by
  cases mode with
  | between => exact .inl ⟨(Option.some.inj h).symm, rfl⟩
  | number stage source =>
      rw [Mode.tokens?] at h
      split at h
      · exact .inr ⟨_, (Option.some.inj h).symm, rfl⟩
      · simp at h
  | quoted source => simp [Mode.tokens?] at h
  | escaped source => simp [Mode.tokens?] at h
  | _ => exact .inr ⟨_, (Option.some.inj h).symm, rfl⟩

/-- A character goes on with a token, or ends one and begins another. -/
theorem step?_cases {ended : List Token} (h : mode.step? c = some (ended, next)) :
    (ended = [] ∧ mode.goOn? c = some next)
      ∨ (mode.tokens? = some ended ∧ begin? c = some next) := by
  unfold Mode.step? at h
  split at h
  · next goes hgo =>
      obtain ⟨rfl, rfl⟩ := Prod.mk.inj (Option.some.inj h)
      exact .inl ⟨rfl, hgo⟩
  · split at h
    · simp at h
    · obtain ⟨tokens, hmode, h⟩ := Option.bind_eq_some_iff.mp h
      obtain ⟨begun, hbegin, h⟩ := Option.bind_eq_some_iff.mp h
      obtain ⟨rfl, rfl⟩ := Prod.mk.inj (Option.some.inj h)
      exact .inr ⟨hmode, hbegin⟩

theorem spelled_of_read {t : Text} {ts : List Token} (h : read mode t = some ts) :
    Spelled ts (mode.source ++ t) := by
  induction t generalizing mode ts with
  | nil =>
      rw [read_nil] at h
      rw [List.append_nil]
      obtain ⟨rfl, hsource⟩ | ⟨token, rfl, hsource⟩ := source_of_tokens? h
      · exact hsource ▸ .space (by simp)
      · simpa [hsource] using Spelled.begins (.space (s := []) (by simp)) token
  | cons c t ih =>
      rw [read_cons] at h
      obtain ⟨⟨ended, next⟩, hstep, hread⟩ := Option.bind_eq_some_iff.mp h
      obtain ⟨more, hmore, rfl⟩ := Option.map_eq_some_iff.mp hread
      have hrest := ih hmore
      obtain ⟨rfl, hgo⟩ | ⟨hmode, hbegin⟩ := step?_cases hstep
      · simpa [source_of_goOn? hgo] using hrest
      · -- what follows the token that ends here, with the character that ends it
        have hfrom : Spelled more (c :: t) := by
          rcases source_of_begin? hbegin with hsource | ⟨hspace, rfl⟩
          · simpa [hsource] using hrest
          · exact Spelled.spaced hrest hspace
        obtain ⟨rfl, hsource⟩ | ⟨token, rfl, hsource⟩ := source_of_tokens? hmode
        · simpa [hsource] using hfrom
        · simpa [hsource] using Spelled.begins hfrom token

/-- **A text is its tokens with white space around them.** -/
theorem spelled_of_tokens? {t : Text} {ts : List Token} (h : tokens? t = some ts) : Spelled ts t :=
  spelled_of_read h

/-! ## Lines -/

/-- The ends of lines go on with no token. -/
theorem goOn?_break (mode : Mode) (hc : c = '\n' ∨ c = '\r') : mode.goOn? c = none := by
  have hoperators : ∀ s ∈ operators, '\n' ∉ s ∧ '\r' ∉ s := by decide
  cases mode with
  | number stage source => rcases hc with rfl | rfl <;> cases stage <;> rfl
  | mark source =>
      have hmem : source ++ [c] ∉ operators := fun h => by
        rcases hc with rfl | rfl
        · exact (hoperators _ h).1 (by simp)
        · exact (hoperators _ h).2 (by simp)
      have hdigit : c.isDigit = false := by rcases hc with rfl | rfl <;> rfl
      simp [Mode.goOn?, hmem, hdigit]
  | _ => rcases hc with rfl | rfl <;> rfl

/-- A text on one line. -/
def NoBreak (t : Text) : Prop := ∀ c ∈ t, c ≠ '\n' ∧ c ≠ '\r'

theorem noBreak_append {s t : Text} : NoBreak (s ++ t) ↔ NoBreak s ∧ NoBreak t :=
  List.forall_mem_append

theorem noBreak_of_goOn? (hmode : NoBreak mode.source) (h : mode.goOn? c = some next) :
    NoBreak next.source := by
  rw [source_of_goOn? h, noBreak_append]
  refine ⟨hmode, fun d hd => ?_⟩
  obtain rfl := List.mem_singleton.mp hd
  refine ⟨fun hc => ?_, fun hc => ?_⟩
  · simp [goOn?_break mode (.inl hc)] at h
  · simp [goOn?_break mode (.inr hc)] at h

theorem noBreak_of_begin? (h : begin? c = some next) : NoBreak next.source := by
  by_cases hspace : isSpace c = true
  · obtain rfl : Mode.between = next := by simpa [begin?, hspace] using h
    exact fun d hd => by simp [Mode.source] at hd
  · have hbreak : c ≠ '\n' ∧ c ≠ '\r' := by
      refine ⟨?_, ?_⟩ <;> rintro rfl <;> exact hspace rfl
    rcases source_of_begin? h with hsource | ⟨hc, -⟩
    · simpa [NoBreak, hsource] using hbreak
    · exact absurd hc hspace

theorem noBreak_of_mode {tokens : List Token} (hmode : NoBreak mode.source)
    (h : mode.tokens? = some tokens) : ∀ t ∈ tokens, NoBreak t.source := by
  obtain ⟨rfl, -⟩ | ⟨token, rfl, hsource⟩ := source_of_tokens? h
  · simp
  · simpa [hsource] using hmode

theorem noBreak_of_read {t : Text} {ts : List Token} (hmode : NoBreak mode.source)
    (h : read mode t = some ts) : ∀ token ∈ ts, NoBreak token.source := by
  induction t generalizing mode ts with
  | nil => exact noBreak_of_mode hmode (read_nil mode ▸ h)
  | cons c t ih =>
      rw [read_cons] at h
      obtain ⟨⟨ended, next⟩, hstep, hread⟩ := Option.bind_eq_some_iff.mp h
      obtain ⟨more, hmore, rfl⟩ := Option.map_eq_some_iff.mp hread
      obtain ⟨rfl, hgo⟩ | ⟨hended, hbegin⟩ := step?_cases hstep
      · exact ih (noBreak_of_goOn? hmode hgo) hmore
      · exact List.forall_mem_append.mpr
          ⟨noBreak_of_mode hmode hended, ih (noBreak_of_begin? hbegin) hmore⟩

/-- **No token goes on beyond the end of a line.** -/
theorem noBreak_of_tokens? {t : Text} {ts : List Token} (h : tokens? t = some ts) :
    ∀ token ∈ ts, NoBreak token.source := by
  have hbetween : NoBreak Mode.between.source := fun _ hc => by simp [Mode.source] at hc
  exact noBreak_of_read hbetween h

end Lexer

end CanvasFlutter.Dart
