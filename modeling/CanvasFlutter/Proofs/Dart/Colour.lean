import Mathlib.Data.List.Forall2
import CanvasFlutter.Dart.Paint
import CanvasFlutter.Proofs.Route.Legal

namespace CanvasFlutter.Dart

/-!
# `CanvasFlutter.Proofs.Dart.Colour` — the colour that a notation writes

A colour has four channels. A notation writes red first and alpha last, with one digit or two for
each; the number that Dart is given holds alpha first. Reading keeps every channel, so all notations
of one colour give one number. What is neither a notation nor the name of the paint that draws
nothing is refused.

## Contents
- **Letters.** `SameLetters`; `lower_eq_iff_sameLetters`.
- **Digits.** `digitValue`, `hexValue`; `isHexDigit_iff_digitValue_lt`.
- **Colours.** `Colour` and its number; `Colour.ofValue_value`: the number holds every channel.
- **Notations.** `Writes`; `exists_writes_iff`, `exists_argb?_of_writes`.
- **Bytes.** `argbOfBytes?` counts and cuts bytes; `argbOfBytes?_eq`: no cut is out of bounds.
- **Reading.** `NamesTransparent`, `number?`; `parse?_cases`, `parse?_iff_writes`.
-/

/-! ## Letters -/

/-- The text is this word of small letters, in whatever case each of its letters is. -/
def SameLetters (word t : Text) : Prop := List.Forall₂ (fun d c => c = d ∨ c = d.toUpper) word t

/-- A character that is the small one of its two cases. -/
def IsSmall (d : Char) : Prop := d.toLower = d ∧ d.toUpper.toLower = d

instance (d : Char) : Decidable (IsSmall d) := inferInstanceAs (Decidable (_ ∧ _))

theorem toUpper_toLower_of_isUpper {c : Char} (h : c.isUpper = true) : c.toLower.toUpper = c :=
  Text.forall_isAsciiWord (p := fun c => c.isUpper = true → c.toLower.toUpper = c) (by decide)
    (Text.isAsciiWord_of_isAlphanum (PageName.isAlphanum_of_isUpper h)) h

theorem toLower_eq_iff {d : Char} (hd : IsSmall d) (c : Char) :
    c.toLower = d ↔ c = d ∨ c = d.toUpper := by
  constructor
  · intro h
    by_cases hupper : c.isUpper = true
    · right
      rw [← h, toUpper_toLower_of_isUpper hupper]
    · left
      rw [← h, PageName.toLower_of_not_isUpper (by simpa using hupper)]
  · rintro (rfl | rfl)
    · exact hd.1
    · exact hd.2

theorem lower_eq_iff_sameLetters {word : Text} (hword : ∀ d ∈ word, IsSmall d) (t : Text) :
    Text.lower t = word ↔ SameLetters word t := by
  induction word generalizing t with
  | nil => simp [Text.lower, SameLetters]
  | cons d word ih =>
      obtain ⟨hd, hword⟩ := List.forall_mem_cons.mp hword
      cases t with
      | nil => simp [Text.lower, SameLetters]
      | cons c t =>
          have hrest : t.map Char.toLower = word ↔ SameLetters word t := ih hword t
          rw [SameLetters, List.forall₂_cons, ← SameLetters, Text.lower, List.map_cons,
            List.cons.injEq, toLower_eq_iff hd, hrest]

/-! ## Digits -/

/-- The hexadecimal digits in the order of their values. -/
def hexDigits : Text := "0123456789abcdef".toList

/-- The value of a hexadecimal digit in either case; sixteen for everything else. -/
def digitValue (c : Char) : Nat := hexDigits.idxOf c.toLower

/-- The number that hexadecimal digits write, the highest first. -/
def hexValue (digits : Text) : Nat := digits.foldl (fun value c => 16 * value + digitValue c) 0

theorem toNat_lt_of_isHexDigit {c : Char} (h : isHexDigit c = true) : c.toNat < 128 := by
  have hle : ∀ d : Char, c ≤ d → d.toNat < 128 → c.toNat < 128 :=
    fun _ hcd hd => Nat.lt_of_le_of_lt hcd hd
  simp only [isHexDigit, Bool.or_eq_true, Bool.and_eq_true, decide_eq_true_eq] at h
  obtain (⟨-, h⟩ | ⟨-, h⟩) | ⟨-, h⟩ := h
  · exact hle '9' h (by decide)
  · exact hle 'f' h (by decide)
  · exact hle 'F' h (by decide)

/-- What holds of every hexadecimal digit among the ASCII characters holds of all of them. -/
theorem forall_isHexDigit {p : Char → Prop}
    (h : ∀ n < 128, isHexDigit (Char.ofNat n) = true → p (Char.ofNat n)) {c : Char}
    (hc : isHexDigit c = true) : p c := by
  have := h c.toNat (toNat_lt_of_isHexDigit hc)
  rw [Char.ofNat_toNat] at this
  exact this hc

theorem isHexDigit_iff_digitValue_lt (c : Char) : isHexDigit c = true ↔ digitValue c < 16 := by
  constructor
  · exact forall_isHexDigit (p := fun c => digitValue c < 16) (by decide)
  · intro h
    have hmem : c.toLower ∈ hexDigits := List.idxOf_lt_length_iff.mp h
    have hdigit : IsSmall c.toLower ∧ isHexDigit c.toLower = true
        ∧ isHexDigit c.toLower.toUpper = true :=
      Text.forall_of_all (p := fun d => IsSmall d ∧ isHexDigit d = true
        ∧ isHexDigit d.toUpper = true) (by decide) _ hmem
    rcases (toLower_eq_iff hdigit.1 c).mp rfl with heq | heq
    · rw [heq]
      exact hdigit.2.1
    · rw [heq]
      exact hdigit.2.2

theorem isWhite_of_isHexDigit {c : Char} (h : isHexDigit c = true) : Text.isWhite c = false :=
  forall_isHexDigit (p := fun c => Text.isWhite c = false) (by decide) h

theorem ne_hash_of_isHexDigit {c : Char} (h : isHexDigit c = true) : c ≠ '#' :=
  forall_isHexDigit (p := fun c => c ≠ '#') (by decide) h

/-! ## Colours -/

/-- A colour, by its four channels. -/
structure Colour where
  red : Fin 256
  green : Fin 256
  blue : Fin 256
  alpha : Fin 256
  deriving DecidableEq, Repr

namespace Colour

/-- The number of a colour: a byte for each channel, alpha in the highest. -/
def value (c : Colour) : Nat := ((c.alpha * 256 + c.red) * 256 + c.green) * 256 + c.blue

/-- The channels of a number of four bytes. -/
def ofValue (n : Nat) : Colour :=
  ⟨Fin.ofNat 256 (n / 65536), Fin.ofNat 256 (n / 256), Fin.ofNat 256 n, Fin.ofNat 256 (n / 16777216)⟩

theorem ofValue_value (c : Colour) : ofValue c.value = c := by
  obtain ⟨red, green, blue, alpha⟩ := c
  simp only [ofValue, value, mk.injEq, Fin.ext_iff, Fin.val_ofNat]
  omega

end Colour

/-! ## Notations -/

/-- The channel that two hexadecimal digits write. -/
def channel (high low : Char) : Fin 256 := Fin.ofNat 256 (16 * digitValue high + digitValue low)

/-- The digits of a notation write this colour. -/
inductive Writes : Text → Colour → Prop
  /-- A digit for each channel, which stands for two of the same. -/
  | short {r g b : Char} (h : ∀ c ∈ [r, g, b], isHexDigit c = true) :
      Writes [r, g, b] ⟨channel r r, channel g g, channel b b, 255⟩
  /-- Two digits for each channel but alpha, which is then the highest. -/
  | long {r r' g g' b b' : Char} (h : ∀ c ∈ [r, r', g, g', b, b'], isHexDigit c = true) :
      Writes [r, r', g, g', b, b'] ⟨channel r r', channel g g', channel b b', 255⟩
  /-- Two digits for each channel. -/
  | full {r r' g g' b b' a a' : Char}
      (h : ∀ c ∈ [r, r', g, g', b, b', a, a'], isHexDigit c = true) :
      Writes [r, r', g, g', b, b', a, a']
        ⟨channel r r', channel g g', channel b b', channel a a'⟩

/-- Three, six or eight hexadecimal digits. -/
def IsNotation (digits : Text) : Prop :=
  (∀ c ∈ digits, isHexDigit c = true)
    ∧ (digits.length = 3 ∨ digits.length = 6 ∨ digits.length = 8)

/-- Eight hexadecimal digits for a number whose four bytes are the channels of this colour, alpha
first. -/
structure IsNumberOf (argb : Text) (colour : Colour) : Prop where
  length_eq : argb.length = 8
  digits : ∀ c ∈ argb, isHexDigit c = true
  value_eq : hexValue argb = colour.value
  channels : Colour.ofValue (hexValue argb) = colour

theorem exists_pair {t : Text} {n : Nat} (h : t.length = n + 2) :
    ∃ a b rest, t = a :: b :: rest ∧ rest.length = n := by
  obtain ⟨a, t, rfl⟩ := List.exists_cons_of_length_eq_add_one h
  obtain ⟨b, t, rfl⟩ := List.exists_cons_of_length_eq_add_one (Nat.succ.inj h)
  exact ⟨a, b, t, rfl, Nat.succ.inj (Nat.succ.inj h)⟩

theorem length_eq_six {digits : Text} (h : digits.length = 6) :
    ∃ r r' g g' b b', digits = [r, r', g, g', b, b'] := by
  obtain ⟨r, r', t, rfl, ht⟩ := exists_pair h
  obtain ⟨g, g', s, rfl, hs⟩ := exists_pair ht
  obtain ⟨b, b', rfl⟩ := List.length_eq_two.mp hs
  exact ⟨r, r', g, g', b, b', rfl⟩

theorem length_eq_eight {digits : Text} (h : digits.length = 8) :
    ∃ r r' g g' b b' a a', digits = [r, r', g, g', b, b', a, a'] := by
  obtain ⟨r, r', t, rfl, ht⟩ := exists_pair h
  obtain ⟨g, g', b, b', a, a', rfl⟩ := length_eq_six ht
  exact ⟨r, r', g, g', b, b', a, a', rfl⟩

theorem exists_writes_iff (digits : Text) : (∃ colour, Writes digits colour) ↔ IsNotation digits := by
  constructor
  · rintro ⟨colour, hwrites⟩
    cases hwrites with
    | short h => exact ⟨h, .inl rfl⟩
    | long h => exact ⟨h, .inr (.inl rfl)⟩
    | full h => exact ⟨h, .inr (.inr rfl)⟩
  · rintro ⟨hdigits, hlength | hlength | hlength⟩
    · obtain ⟨r, g, b, rfl⟩ := List.length_eq_three.mp hlength
      exact ⟨_, .short hdigits⟩
    · obtain ⟨r, r', g, g', b, b', rfl⟩ := length_eq_six hlength
      exact ⟨_, .long hdigits⟩
    · obtain ⟨r, r', g, g', b, b', a, a', rfl⟩ := length_eq_eight hlength
      exact ⟨_, .full hdigits⟩

theorem val_channel {high low : Char} (hhigh : isHexDigit high = true)
    (hlow : isHexDigit low = true) :
    (channel high low : Nat) = 16 * digitValue high + digitValue low := by
  have hhigh := (isHexDigit_iff_digitValue_lt high).mp hhigh
  have hlow := (isHexDigit_iff_digitValue_lt low).mp hlow
  rw [channel, Fin.val_ofNat, Nat.mod_eq_of_lt (by omega)]

/-- Eight digits write the colour of their four pairs, alpha first. -/
theorem isNumberOf_pairs {a a' r r' g g' b b' : Char}
    (h : ∀ c ∈ [a, a', r, r', g, g', b, b'], isHexDigit c = true) :
    IsNumberOf [a, a', r, r', g, g', b, b']
      ⟨channel r r', channel g g', channel b b', channel a a'⟩ := by
  have hvalue : hexValue [a, a', r, r', g, g', b, b']
      = Colour.value ⟨channel r r', channel g g', channel b b', channel a a'⟩ := by
    simp only [List.forall_mem_cons] at h
    obtain ⟨ha, ha', hr, hr', hg, hg', hb, hb', -⟩ := h
    simp only [hexValue, List.foldl_cons, List.foldl_nil, Colour.value, val_channel ha ha',
      val_channel hr hr', val_channel hg hg', val_channel hb hb']
    omega
  exact ⟨rfl, h, hvalue, by rw [hvalue, Colour.ofValue_value]⟩

/-- The digits of a notation are put in the order of the number that they write. -/
theorem exists_argb?_of_writes {digits : Text} {colour : Colour} (h : Writes digits colour) :
    ∃ argb, argb? digits = some argb ∧ IsNumberOf argb colour := by
  -- Where no alpha is written, the two digits in front write the highest.
  have hhighest : channel 'F' 'F' = 255 := by decide
  have hcons : ∀ {t : Text}, (∀ c ∈ t, isHexDigit c = true) →
      ∀ c ∈ 'F' :: 'F' :: t, isHexDigit c = true := fun ht =>
    List.forall_mem_cons.mpr ⟨by decide, List.forall_mem_cons.mpr ⟨by decide, ht⟩⟩
  cases h with
  | @short r g b h =>
      refine ⟨['F', 'F', r, r, g, g, b, b], rfl, ?_⟩
      rw [← hhighest]
      exact isNumberOf_pairs (hcons fun c hc => h c (by grind))
  | @long r r' g g' b b' h =>
      refine ⟨['F', 'F', r, r', g, g', b, b'], rfl, ?_⟩
      rw [← hhighest]
      exact isNumberOf_pairs (hcons h)
  | @full r r' g g' b b' a a' h =>
      exact ⟨[a, a', r, r', g, g', b, b'], rfl, isNumberOf_pairs fun c hc => h c (by grind)⟩

/-- A number is given for notations only. -/
theorem argb?_eq_none {digits : Text} (hdigits : ∀ c ∈ digits, isHexDigit c = true)
    (h : ¬ IsNotation digits) : argb? digits = none := by
  unfold argb?
  split
  · exact absurd ⟨hdigits, .inl rfl⟩ h
  · exact absurd ⟨hdigits, .inr (.inl rfl)⟩ h
  · exact absurd ⟨hdigits, .inr (.inr rfl)⟩ h
  · rfl

/-! ## Bytes -/

/-- How many bytes a text takes in UTF-8. -/
def byteLength (t : Text) : Nat := t.foldr (fun c n => c.utf8Size + n) 0

/-- The two parts of a text at a byte; none if the byte is inside a character or behind the end. -/
def cutAt? : Nat → Text → Option (Text × Text)
  | 0, t => some ([], t)
  | _ + 1, [] => none
  | n + 1, c :: t =>
      if c.utf8Size ≤ n + 1 then
        (cutAt? (n + 1 - c.utf8Size) t).map fun parts => (c :: parts.1, parts.2)
      else none

/-- The eight digits of a colour with alpha first, by the bytes of the notation: none where a cut
would be out of bounds. -/
def argbOfBytes? (digits : Text) : Option (Option Text) :=
  match byteLength digits with
  | 3 => some (some ('F' :: 'F' :: digits.flatMap fun c => [c, c]))
  | 6 => some (some ('F' :: 'F' :: digits))
  | 8 => (cutAt? 6 digits).map fun parts => some (parts.2 ++ parts.1)
  | _ => some none

theorem utf8Size_of_isHexDigit {c : Char} (h : isHexDigit c = true) : c.utf8Size = 1 :=
  forall_isHexDigit (p := fun c => c.utf8Size = 1) (by decide) h

theorem byteLength_eq_length {digits : Text} (h : ∀ c ∈ digits, isHexDigit c = true) :
    byteLength digits = digits.length := by
  induction digits with
  | nil => rfl
  | cons c digits ih =>
      obtain ⟨hc, hdigits⟩ := List.forall_mem_cons.mp h
      show c.utf8Size + byteLength digits = digits.length + 1
      rw [ih hdigits, utf8Size_of_isHexDigit hc, Nat.add_comm]

/-- Between digits every byte is the first of a character. -/
theorem cutAt?_eq {digits : Text} (h : ∀ c ∈ digits, isHexDigit c = true) {n : Nat}
    (hn : n ≤ digits.length) : cutAt? n digits = some (digits.take n, digits.drop n) := by
  induction digits generalizing n with
  | nil =>
      obtain rfl : n = 0 := by simpa using hn
      rfl
  | cons c digits ih =>
      obtain ⟨hc, hdigits⟩ := List.forall_mem_cons.mp h
      cases n with
      | zero => rfl
      | succ n =>
          have hrest := ih hdigits (Nat.le_of_succ_le_succ hn)
          rw [cutAt?, utf8Size_of_isHexDigit hc, if_pos (by omega), Nat.add_sub_cancel, hrest]
          rfl

/-- No cut is out of bounds, and what is put together of the parts is the colour. -/
theorem argbOfBytes?_eq {digits : Text} (h : ∀ c ∈ digits, isHexDigit c = true) :
    argbOfBytes? digits = some (argb? digits) := by
  rw [argbOfBytes?, byteLength_eq_length h]
  split
  · next hlength =>
      obtain ⟨r, g, b, rfl⟩ := List.length_eq_three.mp hlength
      rfl
  · next hlength =>
      obtain ⟨r, r', g, g', b, b', rfl⟩ := length_eq_six hlength
      rfl
  · next hlength =>
      rw [cutAt?_eq h (by omega)]
      obtain ⟨r, r', g, g', b, b', a, a', rfl⟩ := length_eq_eight hlength
      rfl
  · next hthree hsix height =>
      rw [argb?_eq_none h]
      rintro ⟨-, hlength | hlength | hlength⟩
      · exact hthree hlength
      · exact hsix hlength
      · exact height hlength

/-! ## Reading -/

/-- The text is the name of the paint that draws nothing, in any case and with one `#` or none. -/
def NamesTransparent (t : Text) : Prop :=
  SameLetters "transparent".toList t ∨ SameLetters "#transparent".toList t

/-- A text without white space at its ends and then without any `#` in front. -/
def bare (raw : Text) : Text := (Text.trim raw).dropWhile (· == '#')

/-- The number that Dart is given for the colour of a text. -/
def number? (raw : Text) : Option Nat :=
  match Paint.parse? raw with
  | some (.color argb) => some (hexValue argb)
  | _ => none

theorem isTransparent_iff (raw : Text) :
    Paint.isTransparent raw = true ↔ NamesTransparent (Text.trim raw) := by
  simp only [Paint.isTransparent, Bool.or_eq_true, beq_iff_eq, NamesTransparent]
  rw [lower_eq_iff_sameLetters (Text.forall_of_all (by decide)),
    lower_eq_iff_sameLetters (Text.forall_of_all (by decide))]

/-- The name has a letter that is no digit. -/
theorem not_isNotation {raw : Text} (h : NamesTransparent (Text.trim raw)) :
    ¬ IsNotation (bare raw) := by
  have hletter : ∀ {c : Char}, c = 't' ∨ c = Char.toUpper 't' →
      c ≠ '#' ∧ isHexDigit c = false := by
    rintro c (rfl | rfl)
    · decide
    · decide
  -- Behind the `#`, if there is one, the first letter stays in front.
  obtain ⟨c, t, hc, hbare⟩ :
      ∃ c t, (c = 't' ∨ c = Char.toUpper 't') ∧ bare raw = c :: t := by
    unfold bare
    rcases h with h | h
    · obtain ⟨c, t, hc, -, heq⟩ := List.forall₂_cons_left_iff.mp h
      refine ⟨c, t, hc, ?_⟩
      rw [heq, List.dropWhile_cons_of_neg (by simpa using (hletter hc).1)]
    · obtain ⟨d, s, hd, hs, heq⟩ := List.forall₂_cons_left_iff.mp h
      obtain ⟨c, t, hc, -, rfl⟩ := List.forall₂_cons_left_iff.mp hs
      have hhash : d = '#' ∨ d = Char.toUpper '#' := hd
      obtain rfl : d = '#' := hhash.elim id id
      refine ⟨c, t, hc, ?_⟩
      rw [heq, List.dropWhile_cons_of_pos (by simp),
        List.dropWhile_cons_of_neg (by simpa using (hletter hc).1)]
  rintro ⟨hdigits, -⟩
  have hdigit := hdigits c (by rw [hbare]; exact List.mem_cons_self)
  rw [(hletter hc).2] at hdigit
  cases hdigit

theorem parse?_of_namesTransparent {raw : Text} (h : NamesTransparent (Text.trim raw)) :
    Paint.parse? raw = some .transparent := by
  rw [Paint.parse?, if_pos ((isTransparent_iff raw).mpr h)]

/-- A text that names no paint is read digit by digit. -/
theorem parse?_of_not_namesTransparent {raw : Text} (h : ¬ NamesTransparent (Text.trim raw)) :
    Paint.parse? raw
      = if (bare raw).all isHexDigit then (argb? (bare raw)).map .color else none := by
  rw [Paint.parse?, if_neg (mt (isTransparent_iff raw).mp h)]
  rfl

/-- A colour that is written is read, with every channel. -/
theorem exists_parse?_of_writes {raw : Text} {colour : Colour} (h : Writes (bare raw) colour) :
    ∃ argb, Paint.parse? raw = some (.color argb) ∧ IsNumberOf argb colour := by
  have hhex : IsNotation (bare raw) := (exists_writes_iff _).mp ⟨colour, h⟩
  have hname : ¬ NamesTransparent (Text.trim raw) := fun hname => not_isNotation hname hhex
  obtain ⟨argb, hargb, hnumber⟩ := exists_argb?_of_writes h
  refine ⟨argb, ?_, hnumber⟩
  rw [parse?_of_not_namesTransparent hname, if_pos (List.all_eq_true.mpr hhex.1), hargb]
  rfl

theorem number?_of_writes {raw : Text} {colour : Colour} (h : Writes (bare raw) colour) :
    number? raw = some colour.value := by
  obtain ⟨argb, hparse, hnumber⟩ := exists_parse?_of_writes h
  rw [number?, hparse]
  exact congrArg some hnumber.value_eq

/-- What a text can be: the name, a notation or neither, with what is read then. -/
theorem parse?_cases (raw : Text) :
    (NamesTransparent (Text.trim raw) ∧ ¬ IsNotation (bare raw)
        ∧ Paint.parse? raw = some .transparent)
      ∨ (¬ NamesTransparent (Text.trim raw) ∧ ∃ colour argb, Writes (bare raw) colour
        ∧ IsNumberOf argb colour ∧ Paint.parse? raw = some (.color argb))
      ∨ (¬ NamesTransparent (Text.trim raw) ∧ ¬ IsNotation (bare raw)
        ∧ Paint.parse? raw = none) := by
  by_cases hname : NamesTransparent (Text.trim raw)
  · exact .inl ⟨hname, not_isNotation hname, parse?_of_namesTransparent hname⟩
  · by_cases hhex : IsNotation (bare raw)
    · obtain ⟨colour, hwrites⟩ := (exists_writes_iff _).mpr hhex
      obtain ⟨argb, hparse, hnumber⟩ := exists_parse?_of_writes hwrites
      exact .inr (.inl ⟨hname, colour, argb, hwrites, hnumber, hparse⟩)
    · refine .inr (.inr ⟨hname, hhex, ?_⟩)
      rw [parse?_of_not_namesTransparent hname]
      split
      · next hdigits =>
          rw [argb?_eq_none (List.all_eq_true.mp hdigits) hhex]
          rfl
      · rfl

theorem parse?_eq_transparent_iff (raw : Text) :
    Paint.parse? raw = some .transparent ↔ NamesTransparent (Text.trim raw) := by
  rcases parse?_cases raw with ⟨hname, -, hparse⟩ | ⟨hname, colour, argb, -, -, hparse⟩
    | ⟨hname, -, hparse⟩ <;> simp [hname, hparse]

theorem parse?_eq_none_iff (raw : Text) :
    Paint.parse? raw = none ↔ ¬ NamesTransparent (Text.trim raw) ∧ ¬ IsNotation (bare raw) := by
  rcases parse?_cases raw with ⟨hname, -, hparse⟩ | ⟨-, colour, argb, hwrites, -, hparse⟩
    | ⟨hname, hhex, hparse⟩
  · simp [hname, hparse]
  · simp [(exists_writes_iff _).mp ⟨colour, hwrites⟩, hparse]
  · simp [hname, hhex, hparse]

/-- The digits that are read write the colour of the notation. -/
theorem exists_writes_of_parse? {raw argb : Text} (h : Paint.parse? raw = some (.color argb)) :
    ∃ colour, Writes (bare raw) colour ∧ IsNumberOf argb colour := by
  rcases parse?_cases raw with ⟨-, -, hparse⟩ | ⟨-, colour, argb', hwrites, hnumber, hparse⟩
    | ⟨-, -, hparse⟩
  · rw [hparse] at h
    cases h
  · rw [hparse] at h
    cases h
    exact ⟨colour, hwrites, hnumber⟩
  · rw [hparse] at h
    cases h

theorem exists_color_iff (raw : Text) :
    (∃ argb, Paint.parse? raw = some (.color argb)) ↔ IsNotation (bare raw) := by
  rw [← exists_writes_iff]
  constructor
  · rintro ⟨argb, hparse⟩
    obtain ⟨colour, hwrites, -⟩ := exists_writes_of_parse? hparse
    exact ⟨colour, hwrites⟩
  · rintro ⟨colour, hwrites⟩
    obtain ⟨argb, hparse, -⟩ := exists_parse?_of_writes hwrites
    exact ⟨argb, hparse⟩

/-- Digits are their own notation, with a `#` in front of them. -/
theorem bare_hash {digits : Text} (h : ∀ c ∈ digits, isHexDigit c = true) (hne : digits ≠ []) :
    bare ('#' :: digits) = digits := by
  obtain ⟨first, rest, rfl⟩ := List.exists_cons_of_ne_nil hne
  have htrimmed : Text.Trimmed (['#'] ++ ([] ++ (first :: rest))) :=
    Text.trimmed_enclosed ⟨'#', List.head?_cons, by decide⟩
      ⟨_, List.getLast?_eq_some_getLast hne, isWhite_of_isHexDigit (h _ (List.getLast_mem hne))⟩ []
  have htrim : Text.trim ('#' :: first :: rest) = '#' :: first :: rest := htrimmed
  rw [bare, htrim, List.dropWhile_cons_of_pos (by simp), List.dropWhile_cons_of_neg]
  simpa using ne_hash_of_isHexDigit (h first List.mem_cons_self)

theorem number?_hash {digits : Text} {colour : Colour} (h : Writes digits colour) :
    number? ('#' :: digits) = some colour.value := by
  obtain ⟨hdigits, hlength⟩ := (exists_writes_iff digits).mp ⟨colour, h⟩
  have hne : digits ≠ [] := by
    rintro rfl
    simp at hlength
  exact number?_of_writes (by rwa [bare_hash hdigits hne])

/-- Short, long and full digits of one colour without transparency. -/
theorem writes_doubled {r g b f f' : Char} {colour : Colour} (h : Writes [r, g, b] colour)
    (hf : digitValue f = 15) (hf' : digitValue f' = 15) :
    Writes [r, r, g, g, b, b] colour ∧ Writes [r, r, g, g, b, b, f, f'] colour := by
  have hhighest : channel f f' = 255 := by
    rw [channel, hf, hf']
    rfl
  have hfdigit : isHexDigit f = true := (isHexDigit_iff_digitValue_lt f).mpr (by omega)
  have hfdigit' : isHexDigit f' = true := (isHexDigit_iff_digitValue_lt f').mpr (by omega)
  cases h with
  | short h =>
      refine ⟨.long fun c hc => h c (by grind), ?_⟩
      obtain ⟨hr, hg, hb⟩ : isHexDigit r = true ∧ isHexDigit g = true ∧ isHexDigit b = true := by
        simpa using h
      rw [← hhighest]
      exact .full (by simp [hr, hg, hb, hfdigit, hfdigit'])

/-- **A text is read as a paint if and only if it names the paint that draws nothing or is a
notation; the number that is then given holds every channel that is written.** Alpha is the highest
where it is not written, a digit of the short form stands for two, and so the short, the long and
the full notation of one colour give one number. The bytes of a notation are never cut out of
bounds. -/
theorem parse?_iff_writes (raw : Text) :
    (Paint.parse? raw = some .transparent ↔ NamesTransparent (Text.trim raw))
      ∧ ((∃ argb, Paint.parse? raw = some (.color argb)) ↔ IsNotation (bare raw))
      ∧ (Paint.parse? raw = none ↔ ¬ NamesTransparent (Text.trim raw) ∧ ¬ IsNotation (bare raw))
      ∧ (∀ argb, Paint.parse? raw = some (.color argb) →
          (Paint.color argb).text = "Color(0x".toList ++ argb ++ ")".toList
            ∧ ∃ colour, Writes (bare raw) colour ∧ IsNumberOf argb colour)
      ∧ (∀ colour, Writes (bare raw) colour → number? raw = some colour.value)
      ∧ (∀ r g b f f', bare raw = [r, g, b] → (∀ c ∈ [r, g, b], isHexDigit c = true) →
          digitValue f = 15 → digitValue f' = 15 →
          number? ['#', r, r, g, g, b, b] = number? raw
            ∧ number? ['#', r, r, g, g, b, b, f, f'] = number? raw ∧ (number? raw).isSome)
      ∧ ((∀ c ∈ bare raw, isHexDigit c = true) →
          argbOfBytes? (bare raw) = some (argb? (bare raw))) := by
  refine ⟨parse?_eq_transparent_iff raw, exists_color_iff raw, parse?_eq_none_iff raw,
    fun argb hargb => ⟨rfl, exists_writes_of_parse? hargb⟩, fun colour => number?_of_writes, ?_,
    argbOfBytes?_eq⟩
  intro r g b f f' hbare hdigits hf hf'
  obtain ⟨colour, hshort⟩ := (exists_writes_iff [r, g, b]).mpr ⟨hdigits, .inl rfl⟩
  obtain ⟨hlong, hfull⟩ := writes_doubled hshort hf hf'
  have hown : number? raw = some colour.value := number?_of_writes (hbare ▸ hshort)
  rw [hown]
  exact ⟨number?_hash hlong, number?_hash hfull, rfl⟩

/-- A blue in full, with white space around it, and one in short, which is the same as `#2299ff` and
as `#2299ffFf`. -/
theorem parse?_iff_writes_blue :
    (Paint.parse? " #2196F3cc\n".toList = some (.color "cc2196F3".toList))
      ∧ (∃ colour, Writes (bare " #2196F3cc\n".toList) colour ∧ IsNumberOf "cc2196F3".toList colour)
      ∧ bare "#29f".toList = ['2', '9', 'f']
      ∧ number? ['#', '2', '2', '9', '9', 'f', 'f'] = number? "#29f".toList
      ∧ number? ['#', '2', '2', '9', '9', 'f', 'f', 'F', 'f'] = number? "#29f".toList := by
  have hparse : Paint.parse? " #2196F3cc\n".toList = some (.color "cc2196F3".toList) := by
    decide
  have hbare : bare "#29f".toList = ['2', '9', 'f'] := by decide
  obtain ⟨-, -, -, hfull, -⟩ := parse?_iff_writes " #2196F3cc\n".toList
  obtain ⟨-, -, -, -, -, hshort, -⟩ := parse?_iff_writes "#29f".toList
  obtain ⟨-, hwrites⟩ := hfull _ hparse
  obtain ⟨hlong, hdoubled, -⟩ :=
    hshort '2' '9' 'f' 'F' 'f' hbare (Text.forall_of_all (by decide)) (by decide) (by decide)
  exact ⟨hparse, hwrites, hbare, hlong, hdoubled⟩

end CanvasFlutter.Dart
