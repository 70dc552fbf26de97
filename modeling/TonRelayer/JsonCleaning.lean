import TonRelayer.JsonText

/-! Cleaning of the API's answers before they are parsed as JSON.
The cleaner deletes every `\u0000` of the text and every control character but newline and tab.
It does not read escapes: an escaped backslash before the letters `u0000` loses one half. -/
namespace JsonCleaning

open JsonTrees JsonText

section Lossy

def continuation (b : UInt8) : Bool := 0x80 ≤ b && b ≤ 0xBF

/-- The bits of a leading byte, the range of the second byte and the number of bytes to come. -/
def lead (b : UInt8) : Option (ℕ × UInt8 × UInt8 × ℕ) :=
  if b < 0x80 then some (b.toNat, 0x80, 0xBF, 0)
  else if 0xC2 ≤ b ∧ b ≤ 0xDF then some (b.toNat - 0xC0, 0x80, 0xBF, 1)
  else if b = 0xE0 then some (0, 0xA0, 0xBF, 2)
  else if b = 0xED then some (0xD, 0x80, 0x9F, 2)
  else if 0xE1 ≤ b ∧ b ≤ 0xEF then some (b.toNat - 0xE0, 0x80, 0xBF, 2)
  else if b = 0xF0 then some (0, 0x90, 0xBF, 3)
  else if 0xF1 ≤ b ∧ b ≤ 0xF3 then some (b.toNat - 0xF0, 0x80, 0xBF, 3)
  else if b = 0xF4 then some (4, 0x80, 0x8F, 3)
  else none

def replacement : Char := Char.ofNat 0xFFFD

/-- The character that the bytes begin with and how many more bytes it takes; the longest
beginning of a character that breaks off is replaced as a whole. -/
def lossyChar (b : UInt8) (rest : List UInt8) : Char × ℕ :=
  match lead b with
  | none => (replacement, 0)
  | some (bits, low, high, more) =>
    let tail := match rest.take more with
      | [] => []
      | second :: others =>
        if low ≤ second ∧ second ≤ high then second :: others.takeWhile continuation else []
    if tail.length = more then
      (Char.ofNat (tail.foldl (fun n x => n * 64 + x.toNat % 64) bits), more)
    else (replacement, tail.length)

/-- With the number of bytes that belong to the character before. -/
def lossyChars : ℕ → List UInt8 → List Char
  | _, [] => []
  | n + 1, _ :: rest => lossyChars n rest
  | 0, b :: rest => (lossyChar b rest).1 :: lossyChars (lossyChar b rest).2 rest

/-- `String::from_utf8_lossy` -/
def fromUtf8Lossy (input : ByteArray) : String :=
  match String.fromUTF8? input with
  | some text => text
  | none => String.ofList (lossyChars 0 input.toList)

example : lossyChars 0 [0x61, 0xE2, 0x82, 0x62, 0xC3, 0xA9, 0xFF] =
    ['a', replacement, 'b', 'é', replacement] := by
  decide

theorem fromUtf8Lossy_toUTF8 (text : String) : fromUtf8Lossy text.toUTF8 = text := by
  rw [fromUtf8Lossy, String.fromUTF8?, String.toUTF8_eq_toByteArray, dif_pos text.isValidUTF8]
  rfl

end Lossy

section Cleaner

/-- `replace("\\u0000", "")` -/
def removeEscapedNulls : List Char → List Char
  | '\\' :: 'u' :: '0' :: '0' :: '0' :: '0' :: rest => removeEscapedNulls rest
  | c :: rest => c :: removeEscapedNulls rest
  | [] => []

/-- The category `Cc`. -/
def isControl (c : Char) : Bool := c.toNat < 0x20 || (0x7F ≤ c.toNat && c.toNat ≤ 0x9F)

def kept (c : Char) : Bool := !isControl c || c == '\n' || c == '\t'

def clean (text : List Char) : List Char := (removeEscapedNulls text).filter kept

def cleanJsonStringFull (input : ByteArray) : String :=
  String.ofList (clean (fromUtf8Lossy input).toList)

def nullLetters : List Char := ['u', '0', '0', '0', '0']

@[simp] theorem clean_nil : clean [] = [] := rfl

theorem clean_null (rest : List Char) : clean ('\\' :: (nullLetters ++ rest)) = clean rest := by
  simp [clean, nullLetters, removeEscapedNulls]

theorem removeEscapedNulls_cons {c : Char} {rest : List Char}
    (h : ¬ (c = '\\' ∧ nullLetters <+: rest)) :
    removeEscapedNulls (c :: rest) = c :: removeEscapedNulls rest := by
  rw [removeEscapedNulls]
  rintro rest' rfl rfl
  exact h ⟨rfl, rest', rfl⟩

theorem clean_cons {c : Char} {rest : List Char} (h : ¬ (c = '\\' ∧ nullLetters <+: rest)) :
    clean (c :: rest) = if kept c then c :: clean rest else clean rest := by
  rw [clean, removeEscapedNulls_cons h, List.filter_cons]
  rfl

end Cleaner

section Bodies

/-- An escape for U+0000. -/
def nullEscape : Element → Bool
  | .unicode a b c d => a.value == 0 && b.value == 0 && c.value == 0 && d.value == 0
  | _ => false

def rawControl : Element → Bool
  | .plain c => isControl c.val
  | _ => false

def dropped (e : Element) : Bool := nullEscape e || rawControl e

def cleanBody (b : Body) : Body := b.filter fun e => !dropped e

theorem cleanBody_cons (e : Element) (b : Body) :
    cleanBody (e :: b) = if dropped e then cleanBody b else e :: cleanBody b := by
  rw [cleanBody, List.filter_cons]
  cases dropped e <;> rfl

/-- An escaped backslash with the raw letters `u0000` right after it. -/
def Trap (b : Body) : Prop :=
  ∃ rest, .escape .reverseSolidus :: rest <:+ b ∧ nullLetters <+: chars rest

theorem Trap.cons {e : Element} {b : Body} (h : Trap b) : Trap (e :: b) := by
  obtain ⟨rest, hrest, hletters⟩ := h
  exact ⟨rest, hrest.trans (List.suffix_cons e b), hletters⟩

theorem trap_cons {e : Element} {b : Body} : Trap (e :: b) ↔
    (e = .escape .reverseSolidus ∧ nullLetters <+: chars b) ∨ Trap b := by
  constructor
  · rintro ⟨rest, hrest, hletters⟩
    rcases List.suffix_cons_iff.mp hrest with heq | hrest
    · cases heq
      exact .inl ⟨rfl, hletters⟩
    · exact .inr ⟨rest, hrest, hletters⟩
  · rintro (⟨rfl, hletters⟩ | h)
    · exact ⟨b, List.suffix_refl _, hletters⟩
    · exact h.cons

theorem not_trap_nil : ¬ Trap [] := by
  rintro ⟨rest, hrest, -⟩
  cases List.suffix_nil.mp hrest

def Trap.decide : ∀ b, Decidable (Trap b)
  | [] => isFalse not_trap_nil
  | _ :: b => have := Trap.decide b; decidable_of_iff _ trap_cons.symm

instance : DecidablePred Trap := Trap.decide

theorem kept_bare {c : Char} (h : Bare c) : kept c = true := by
  obtain ⟨hlow, hhigh, -⟩ := h
  have hcontrol : isControl c = false := by
    simp only [isControl, Bool.or_eq_false_iff, Bool.and_eq_false_iff, decide_eq_false_iff_not]
    omega
  simp [kept, hcontrol]

theorem kept_plain (c : PlainChar) : kept c.val = !isControl c.val := by
  obtain ⟨c, hspace, -⟩ := c
  have hnewline : c ≠ '\n' := by
    rintro rfl
    revert hspace
    decide
  have htab : c ≠ '\t' := by
    rintro rfl
    revert hspace
    decide
  rw [kept, beq_false_of_ne hnewline, beq_false_of_ne htab, Bool.or_false, Bool.or_false]

theorem clean_bare {c : Char} (h : Bare c) (rest : List Char) :
    clean (c :: rest) = c :: clean rest := by
  rw [clean_cons fun hc => h.2.2.2 hc.1, if_pos (kept_bare h)]

theorem clean_backslash {rest : List Char} (h : ¬ nullLetters <+: rest) :
    clean ('\\' :: rest) = '\\' :: clean rest := by
  rw [clean_cons fun hc => h hc.2]
  rfl

theorem clean_element {e : Element} {rest : List Char}
    (h : e = .escape .reverseSolidus → ¬ nullLetters <+: rest) :
    clean (e.chars ++ rest) = (if dropped e then [] else e.chars) ++ clean rest := by
  cases e with
  | plain c =>
    rw [Element.chars, List.singleton_append, clean_cons fun hc => c.property.2.2 hc.1, kept_plain]
    by_cases hcontrol : isControl c.val = true
    · simp [dropped, nullEscape, rawControl, hcontrol]
    · simp [dropped, nullEscape, rawControl, hcontrol]
  | escape e =>
    have hletter : ¬ nullLetters <+: e.letter :: rest := by
      cases e <;> simp [nullLetters, Escape.letter]
    have hrest : clean (e.letter :: rest) = e.letter :: clean rest := by
      by_cases hsolidus : e = .reverseSolidus
      · cases hsolidus
        exact clean_backslash (h rfl)
      · rw [clean_cons]
        · cases e <;> rfl
        · rintro ⟨hbackslash, -⟩
          apply hsolidus
          cases e <;> revert hbackslash <;> decide
    simp only [Element.chars, List.cons_append, List.nil_append]
    rw [clean_backslash hletter, hrest]
    rfl
  | unicode a b c d =>
    simp only [Element.chars, List.cons_append, List.nil_append]
    by_cases hzero : dropped (.unicode a b c d) = true
    · rw [if_pos hzero, List.nil_append]
      simp only [dropped, nullEscape, rawControl, Bool.or_false, Bool.and_eq_true,
        beq_iff_eq] at hzero
      obtain ⟨⟨⟨ha, hb⟩, hc⟩, hd⟩ := hzero
      rw [a.char_zero.mpr ha, b.char_zero.mpr hb, c.char_zero.mpr hc, d.char_zero.mpr hd]
      exact clean_null rest
    · have hletters : ¬ nullLetters <+: 'u' :: a.char :: b.char :: c.char :: d.char :: rest := by
        intro hletters
        apply hzero
        simp only [nullLetters, List.cons_prefix_cons] at hletters
        obtain ⟨-, ha, hb, hc, hd, -⟩ := hletters
        simp [dropped, nullEscape, a.char_zero.mp ha.symm, b.char_zero.mp hb.symm,
          c.char_zero.mp hc.symm, d.char_zero.mp hd.symm]
      rw [if_neg hzero, clean_backslash hletters, clean_bare (by decide), clean_bare a.char_bare,
        clean_bare b.char_bare, clean_bare c.char_bare, clean_bare d.char_bare]
      rfl

/-- A quote ends a prefix without quotes. -/
theorem prefix_before_quote {p cs rest : List Char} (hp : '"' ∉ p) (h : p <+: cs ++ '"' :: rest) :
    p <+: cs := by
  rcases List.prefix_or_prefix_of_prefix h (List.prefix_append cs ('"' :: rest)) with h' | h'
  · exact h'
  · obtain ⟨q, rfl⟩ := h'
    cases q with
    | nil => simp
    | cons c q =>
      have hc := (List.prefix_append_right_inj cs).mp h
      obtain rfl : c = '"' := (List.cons_prefix_cons.mp hc).1
      exact absurd (by simp) hp

theorem clean_quote (rest : List Char) : clean ('"' :: rest) = '"' :: clean rest := by
  rw [clean_cons fun hc => absurd hc.1 (by decide)]
  rfl

theorem clean_chars {b : Body} (h : ¬ Trap b) (rest : List Char) :
    clean (chars b ++ '"' :: rest) = chars (cleanBody b) ++ '"' :: clean rest := by
  induction b with
  | nil => exact clean_quote rest
  | cons e b ih =>
    rw [trap_cons, not_or, not_and] at h
    have hletters : e = .escape .reverseSolidus → ¬ nullLetters <+: chars b ++ '"' :: rest :=
      fun he hstart => h.1 he (prefix_before_quote (by decide) hstart)
    rw [chars_cons, List.append_assoc, clean_element hletters, ih h.2, cleanBody_cons]
    by_cases hdropped : dropped e = true
    · simp [hdropped]
    · simp [hdropped]

end Bodies

section Texts

variable {ls : List (Lexeme Body)} {text : List Char}

theorem clean_quiet {cs : List Char} (h : ∀ c ∈ cs, c ≠ '\\') (rest : List Char) :
    clean (cs ++ rest) = cs.filter kept ++ clean rest := by
  induction cs with
  | nil => rfl
  | cons c cs ih =>
    have hc : ¬ (c = '\\' ∧ nullLetters <+: cs ++ rest) := fun hc => h c List.mem_cons_self hc.1
    rw [List.cons_append, clean_cons hc, ih fun c hc => h c (List.mem_cons_of_mem _ hc),
      List.filter_cons]
    split <;> rfl

/-- A carriage return is a control character. -/
theorem clean_whitespace (ws : List Whitespace) (rest : List Char) :
    clean (ws.map Whitespace.char ++ rest) =
      (ws.filter fun w => w != .carriageReturn).map Whitespace.char ++ clean rest := by
  have hkept : kept ∘ Whitespace.char = fun w => w != .carriageReturn := by
    funext w
    cases w <;> rfl
  rw [clean_quiet fun c hc => (whitespace_quiet ws c hc).2, List.filter_map, hkept]

theorem clean_word (w : Word) (rest : List Char) :
    clean (w.chars ++ rest) = w.chars ++ clean rest := by
  rw [clean_quiet fun c hc => (w.quiet c hc).2,
    List.filter_eq_self.mpr fun c hc => kept_bare (w.bare c hc)]

/-- Without a trap the cleaner cleans the strings and keeps the rest. -/
theorem clean_spaced (h : Spaced ls text) (htrap : ∀ b, .quoted b ∈ ls → ¬ Trap b) :
    Spaced (ls.map (Lexeme.map cleanBody)) (clean text) := by
  induction h with
  | nil ws =>
    have hend := clean_whitespace ws []
    rw [List.append_nil, clean_nil, List.append_nil] at hend
    rw [hend]
    exact .nil _
  | cons ws h ih =>
    rename_i l ls text
    have hrest := ih fun b hb => htrap b (List.mem_cons_of_mem _ hb)
    rw [List.append_assoc, clean_whitespace]
    cases l with
    | word w =>
      rw [Lexeme.chars, clean_word, ← List.append_assoc]
      exact .cons _ hrest
    | quoted b =>
      have hb : clean (Lexeme.chars (.quoted b) ++ text) =
          Lexeme.chars (.quoted (cleanBody b)) ++ clean text := by
        simp only [Lexeme.chars, List.cons_append, List.append_assoc, List.nil_append]
        rw [clean_quote, clean_chars (htrap b List.mem_cons_self)]
      rw [hb, ← List.append_assoc]
      exact .cons _ hrest

end Texts

section Pieces

def nullElements : Body :=
  .plain ⟨'u', by decide⟩ :: List.replicate 4 (.plain ⟨'0', by decide⟩)

/-- A body read as the cleaner reads it. -/
inductive Pieces : Body → Prop where
  | nil : Pieces []
  | trap {b : Body} : Pieces b → Pieces (.escape .reverseSolidus :: (nullElements ++ b))
  | element {e : Element} {b : Body} :
    (e = .escape .reverseSolidus → ¬ nullLetters <+: chars b) → Pieces b → Pieces (e :: b)

theorem plain_of_prefix {p : PlainChar} {cs : List Char} {b : Body}
    (h : p.val :: cs <+: chars b) : ∃ b', b = .plain p :: b' ∧ cs <+: chars b' := by
  cases b with
  | nil => exact absurd (List.prefix_nil.mp h) (List.cons_ne_nil _ _)
  | cons e b =>
    have hsolidus : p.val ≠ '\\' := p.property.2.2
    cases e with
    | plain c =>
      obtain ⟨hc, hcs⟩ := List.cons_prefix_cons.mp h
      exact ⟨b, by rw [Subtype.ext hc], hcs⟩
    | escape e => exact absurd (List.cons_prefix_cons.mp h).1 hsolidus
    | unicode a b c d => exact absurd (List.cons_prefix_cons.mp h).1 hsolidus

theorem nullElements_of_prefix {b : Body} (h : nullLetters <+: chars b) :
    ∃ b', b = nullElements ++ b' := by
  obtain ⟨b₁, rfl, h₁⟩ := plain_of_prefix (p := ⟨'u', by decide⟩) h
  obtain ⟨b₂, rfl, h₂⟩ := plain_of_prefix (p := ⟨'0', by decide⟩) h₁
  obtain ⟨b₃, rfl, h₃⟩ := plain_of_prefix (p := ⟨'0', by decide⟩) h₂
  obtain ⟨b₄, rfl, h₄⟩ := plain_of_prefix (p := ⟨'0', by decide⟩) h₃
  obtain ⟨b₅, rfl, -⟩ := plain_of_prefix (p := ⟨'0', by decide⟩) h₄
  exact ⟨b₅, rfl⟩

theorem pieces (b : Body) : Pieces b := by
  induction hn : b.length using Nat.strongRecOn generalizing b with
  | ind n ih =>
    subst hn
    cases b with
    | nil => exact .nil
    | cons e b =>
      by_cases htrap : e = .escape .reverseSolidus ∧ nullLetters <+: chars b
      · obtain ⟨rfl, hletters⟩ := htrap
        obtain ⟨b, rfl⟩ := nullElements_of_prefix hletters
        apply Pieces.trap
        apply ih b.length _ b rfl
        simp only [List.length_cons, List.length_append]
        omega
      · exact .element (not_and.mp htrap) (ih b.length (Nat.lt_succ_self _) b rfl)

end Pieces

section Bounds

/-- What the scanner can count in a cleaned text: at most `m` units inside of a string, fewer if
`strict`; less than `m + 6` after a stray backslash; and nothing if the quotes are off by one. -/
structure Bounds (text : List Char) (m : ℕ) (strict : Prop) : Prop where
  inside : ∀ n, scan .inside text = some n → n ≤ m ∧ (strict → n < m)
  escaped : ∀ n, scan .escaped text = some n → n < m + 6
  digits : ∀ k n, scan (.digits k) text = some n → n < m + 6
  outside : scan .outside text = none

variable {text : List Char} {m : ℕ} {strict strict' : Prop}

theorem Bounds.mono (h : Bounds text m strict) (hstrict : strict' → strict) :
    Bounds text m strict' where
  inside := fun n hn => ⟨(h.inside n hn).1, fun hs => (h.inside n hn).2 (hstrict hs)⟩
  escaped := h.escaped
  digits := h.digits
  outside := h.outside

theorem scan_digits_none {c : Char} (hc : c = '"' ∨ c = '\\') (k : ℕ) (cs : List Char) :
    scan (.digits k) (c :: cs) = none := by
  cases k with
  | zero => rw [scan, if_pos hc]
  | succ k => rw [scan, if_pos hc]

theorem scan_plain {c : Char} (hquote : c ≠ '"') (hsolidus : c ≠ '\\') (cs : List Char) :
    scan .inside (c :: cs) = (scan .inside cs).map (· + (utf16 c).length) := by
  rw [scan, if_neg hquote, if_neg hsolidus]

/-- An element adds its own units to what is counted inside of a string. -/
theorem inside_element (e : Element) (h : Bounds text m strict) :
    ∀ n, scan .inside (e.chars ++ text) = some n →
      n ≤ e.units.length + m ∧ (strict → n < e.units.length + m) := by
  intro n hn
  rw [scan_element] at hn
  obtain ⟨n', hn', rfl⟩ := Option.map_eq_some_iff.mp hn
  obtain ⟨hle, hlt⟩ := h.inside n' hn'
  constructor
  · omega
  · intro hs
    have hlt' := hlt hs
    omega

/-- A backslash is no digit, and none stands between the lexemes of a text. -/
theorem solidus_digits (cs : List Char) :
    ∀ k n, scan (.digits k) ('\\' :: cs) = some n → n < m + 6 := by
  intro k n hn
  rw [scan_digits_none (.inr rfl)] at hn
  cases hn

theorem solidus_outside (cs : List Char) : scan .outside ('\\' :: cs) = none := by
  rw [scan, if_neg (by decide), if_pos rfl]

theorem bounds_quote (hout : ∀ n, scan .outside text = some n → n ≤ m ∧ (strict → n < m))
    (hin : scan .inside text = none) : Bounds ('"' :: text) m strict where
  inside := by
    intro n hn
    rw [scan, if_pos rfl] at hn
    exact hout n hn
  escaped := by
    intro n hn
    rw [scan, if_neg (by decide), hin] at hn
    cases hn
  digits := by
    intro k n hn
    rw [scan_digits_none (.inl rfl)] at hn
    cases hn
  outside := by
    rw [scan, if_pos rfl]
    exact hin

theorem bounds_plain (c : PlainChar) (h : Bounds text m strict) :
    Bounds (c.val :: text) ((utf16 c.val).length + m) strict where
  inside := inside_element (.plain c) h
  escaped := by
    intro n hn
    have hlength := List.length_pos_iff.mpr (utf16_ne_nil c.val)
    rw [scan] at hn
    split at hn
    · have hlt := h.digits 3 n hn
      omega
    · obtain ⟨n', hn', rfl⟩ := Option.map_eq_some_iff.mp hn
      have hle := (h.inside n' hn').1
      omega
  digits := by
    intro k n hn
    have hc : ¬ (c.val = '"' ∨ c.val = '\\') := not_or.mpr c.property.2
    have hlength := List.length_pos_iff.mpr (utf16_ne_nil c.val)
    cases k with
    | zero =>
      rw [scan, if_neg hc] at hn
      obtain ⟨n', hn', rfl⟩ := Option.map_eq_some_iff.mp hn
      have hle := (h.inside n' hn').1
      omega
    | succ k =>
      rw [scan, if_neg hc] at hn
      have hlt := h.digits k n hn
      omega
  outside := by
    rw [scan, if_neg c.property.2.1, if_neg c.property.2.2]
    exact h.outside

theorem bounds_escape (e : Escape) (h : Bounds text m strict) :
    Bounds ('\\' :: e.letter :: text) (1 + m) strict where
  inside := inside_element (.escape e) h
  escaped := by
    intro n hn
    rw [scan, if_neg (by decide)] at hn
    obtain ⟨n', hn', rfl⟩ := Option.map_eq_some_iff.mp hn
    rw [scan] at hn'
    split at hn'
    · rw [h.outside] at hn'
      cases hn'
    · split at hn'
      · have hlt := h.escaped n' hn'
        omega
      · obtain ⟨n'', hn'', rfl⟩ := Option.map_eq_some_iff.mp hn'
        have hle := (h.inside n'' hn'').1
        have hone : (utf16 e.letter).length = 1 := by
          cases e <;> rfl
        omega
  digits := solidus_digits _
  outside := solidus_outside _

theorem scan_bare {cs : List Char} (hcs : ∀ c ∈ cs, Bare c) (rest : List Char) :
    scan .inside (cs ++ rest) = (scan .inside rest).map (· + cs.length) := by
  induction cs with
  | nil => simp
  | cons c cs ih =>
    have hc := hcs c List.mem_cons_self
    have hone : (utf16 c).length = 1 := by
      have hhigh := hc.2.1
      rw [utf16, if_pos (by omega), List.length_singleton]
    rw [List.cons_append, scan_plain hc.2.2.1 hc.2.2.2,
      ih fun c hc => hcs c (List.mem_cons_of_mem _ hc), Option.map_map, hone]
    congr 1

theorem bounds_unicode (a b c d : HexDigit) (h : Bounds text m strict) :
    Bounds (Element.chars (.unicode a b c d) ++ text) (1 + m) strict where
  inside := inside_element (.unicode a b c d) h
  escaped := by
    intro n hn
    have hbare : ∀ x ∈ ['u', a.char, b.char, c.char, d.char], Bare x := by
      simp only [List.forall_mem_cons, HexDigit.char_bare, true_and]
      decide
    have hscan := scan_bare hbare text
    simp only [List.cons_append, List.nil_append] at hscan
    simp only [Element.chars, List.cons_append, List.nil_append] at hn
    rw [scan, if_neg (by decide), hscan] at hn
    obtain ⟨n', hn', rfl⟩ := Option.map_eq_some_iff.mp hn
    obtain ⟨n'', hn'', rfl⟩ := Option.map_eq_some_iff.mp hn'
    have hle := (h.inside n'' hn'').1
    simp only [List.length_cons, List.length_nil]
    omega
  digits := solidus_digits _
  outside := solidus_outside _

/-- What is left of a trap is a backslash that escapes what follows. -/
theorem bounds_trap (h : Bounds text m strict) : Bounds ('\\' :: text) (6 + m) True where
  inside := by
    intro n hn
    rw [scan, if_neg (by decide), if_pos rfl] at hn
    have hlt := h.escaped n hn
    exact ⟨by omega, fun _ => by omega⟩
  escaped := by
    intro n hn
    rw [scan, if_neg (by decide)] at hn
    obtain ⟨n', hn', rfl⟩ := Option.map_eq_some_iff.mp hn
    have hle := (h.inside n' hn').1
    omega
  digits := solidus_digits _
  outside := solidus_outside _

theorem content_trap (b : Body) :
    (content (cleanBody (.escape .reverseSolidus :: (nullElements ++ b)))).length =
      6 + (content (cleanBody b)).length := by
  have hkeep : ∀ e ∈ .escape .reverseSolidus :: nullElements, (!dropped e) = true := by
    decide
  rw [← List.cons_append, cleanBody, List.filter_append, List.filter_eq_self.mpr hkeep, content,
    List.flatMap_append, List.length_append]
  rfl

theorem bounds_body {b : Body} {rest : List Char} (hb : Pieces b)
    (h : Bounds ('"' :: clean rest) m strict) :
    Bounds (clean (chars b ++ '"' :: rest)) ((content (cleanBody b)).length + m)
      (Trap b ∨ strict) := by
  induction hb with
  | nil =>
    rw [chars_nil, List.nil_append, clean_quote]
    have hzero : (content (cleanBody [])).length + m = m := Nat.zero_add m
    rw [hzero]
    exact h.mono fun hs => hs.resolve_left not_trap_nil
  | trap hb ih =>
    rename_i b
    have hclean : clean (chars (.escape .reverseSolidus :: (nullElements ++ b)) ++ '"' :: rest) =
        '\\' :: clean (chars b ++ '"' :: rest) := by
      have hnot : ¬ nullLetters <+: '\\' :: (nullLetters ++ (chars b ++ '"' :: rest)) := by
        simp [nullLetters]
      have hletters := clean_backslash hnot
      rwa [clean_null] at hletters
    rw [hclean, content_trap, Nat.add_assoc]
    exact (bounds_trap ih).mono fun _ => trivial
  | element he hb ih =>
    rename_i e b
    have hletters : e = .escape .reverseSolidus → ¬ nullLetters <+: chars b ++ '"' :: rest :=
      fun heq hstart => he heq (prefix_before_quote (by decide) hstart)
    have hstrict : Trap (e :: b) ∨ strict → Trap b ∨ strict := by
      rintro (htrap | hs)
      · exact .inl ((trap_cons.mp htrap).resolve_left fun h => he h.1 h.2)
      · exact .inr hs
    rw [chars_cons, List.append_assoc, clean_element hletters, cleanBody_cons]
    by_cases hdropped : dropped e = true
    · rw [if_pos hdropped, if_pos hdropped]
      exact ih.mono hstrict
    · rw [if_neg hdropped, if_neg hdropped, content_cons, List.length_append, Nat.add_assoc]
      cases e with
      | plain c => exact (bounds_plain c ih).mono hstrict
      | escape e => exact (bounds_escape e ih).mono hstrict
      | unicode a b c d => exact (bounds_unicode a b c d ih).mono hstrict

theorem scan_inside_none {cs rest : List Char} (hcs : ∀ c ∈ cs, c ≠ '"' ∧ c ≠ '\\')
    (h : scan .inside rest = none) : scan .inside (cs ++ rest) = none := by
  induction cs with
  | nil => exact h
  | cons c cs ih =>
    obtain ⟨hquote, hsolidus⟩ := hcs c List.mem_cons_self
    rw [List.cons_append, scan_plain hquote hsolidus,
      ih fun c hc => hcs c (List.mem_cons_of_mem _ hc)]
    rfl

/-- The units of the cleaned strings. -/
def cleanTotal (ls : List (Lexeme Body)) : ℕ :=
  total (ls.map (Lexeme.map fun b => content (cleanBody b)))

theorem scan_clean {ls : List (Lexeme Body)} {text : List Char} (h : Spaced ls text) :
    (∀ n, scan .outside (clean text) = some n → n ≤ cleanTotal ls ∧
      ((∃ b, .quoted b ∈ ls ∧ Trap b) → n < cleanTotal ls)) ∧
    scan .inside (clean text) = none := by
  induction h with
  | nil ws =>
    have hend := clean_whitespace ws []
    rw [List.append_nil, clean_nil] at hend
    rw [hend, scan_outside (whitespace_quiet _)]
    constructor
    · intro n hn
      cases hn
      refine ⟨Nat.le_refl _, ?_⟩
      rintro ⟨b, hb, -⟩
      cases hb
    · exact scan_inside_none (whitespace_quiet _) rfl
  | cons ws h ih =>
    rename_i l ls text
    obtain ⟨hout, hin⟩ := ih
    rw [List.append_assoc, clean_whitespace, scan_outside (whitespace_quiet _)]
    cases l with
    | word w =>
      rw [Lexeme.chars, clean_word, scan_outside w.quiet]
      constructor
      · intro n hn
        obtain ⟨hle, hlt⟩ := hout n hn
        refine ⟨hle, ?_⟩
        rintro ⟨b, hb, htrap⟩
        apply hlt
        rcases List.mem_cons.mp hb with heq | hb
        · cases heq
        · exact ⟨b, hb, htrap⟩
      · exact scan_inside_none (whitespace_quiet _) (scan_inside_none w.quiet hin)
    | quoted b =>
      have hbody := bounds_body (pieces b) (bounds_quote hout hin)
      have hquoted : Lexeme.chars (.quoted b) ++ text = '"' :: (chars b ++ '"' :: text) := by
        simp [Lexeme.chars]
      have htotal : cleanTotal (.quoted b :: ls) =
          (content (cleanBody b)).length + cleanTotal ls := rfl
      rw [hquoted, clean_quote, htotal]
      constructor
      · intro n hn
        rw [scan, if_pos rfl] at hn
        obtain ⟨hle, hlt⟩ := hbody.inside n hn
        refine ⟨hle, ?_⟩
        rintro ⟨b', hb', htrap⟩
        apply hlt
        rcases List.mem_cons.mp hb' with heq | hb'
        · cases heq
          exact .inl htrap
        · exact .inr ⟨b', hb', htrap⟩
      · apply scan_inside_none (whitespace_quiet _)
        rw [scan, if_pos rfl]
        exact hbody.outside

end Bounds

section Cleaning

def strings (j : Json Number Body) : List Body :=
  (lexemes j).filterMap fun
    | .word _ => none
    | .quoted b => some b

theorem mem_strings {j : Json Number Body} {b : Body} : b ∈ strings j ↔ .quoted b ∈ lexemes j := by
  rw [strings, List.mem_filterMap]
  constructor
  · rintro ⟨l, hl, hb⟩
    cases l with
    | word w => cases hb
    | quoted b' =>
      cases hb
      exact hl
  · exact fun hb => ⟨_, hb, rfl⟩

/-- The text says what `j` says, with its strings and keys cleaned, and it stays as it is when it
is cleaned again. -/
structure CleanText (j : Json Number Body) (text : String) : Prop where
  valid : ∃ j', IsText j' text.toList ∧ j'.map content = j.map (content ∘ cleanBody) ∧
    ∀ b ∈ strings j', ∀ e ∈ b, nullEscape e = false
  again : cleanJsonStringFull text.toUTF8 = text

theorem cleanBody_cleanBody (b : Body) : cleanBody (cleanBody b) = cleanBody b := by
  simp [cleanBody]

theorem Trap.cleanBody {b : Body} (h : Trap b) : Trap (cleanBody b) := by
  obtain ⟨rest, ⟨front, rfl⟩, hletters⟩ := h
  obtain ⟨rest, rfl⟩ := nullElements_of_prefix hletters
  refine ⟨nullElements ++ JsonCleaning.cleanBody rest, ⟨JsonCleaning.cleanBody front, ?_⟩, ?_⟩
  · simp only [JsonCleaning.cleanBody, List.filter_append, List.filter_cons]
    rfl
  · exact ⟨chars (JsonCleaning.cleanBody rest), by simp [chars, nullElements]; rfl⟩

/-- A text that is clean already. -/
theorem clean_fixed {ls : List (Lexeme Body)} {text : List Char} (h : Spaced ls text)
    (hkept : ∀ c ∈ text, kept c = true)
    (hquoted : ∀ b, .quoted b ∈ ls → ¬ Trap b ∧ cleanBody b = b) : clean text = text := by
  induction h with
  | nil ws =>
    have hend := clean_quiet (fun c hc => (whitespace_quiet ws c hc).2) []
    rwa [clean_nil, List.append_nil, List.append_nil, List.filter_eq_self.mpr hkept] at hend
  | cons ws h ih =>
    rename_i l ls text
    have hrest : clean text = text := by
      apply ih
      · exact fun c hc => hkept c (List.mem_append_right _ hc)
      · exact fun b hb => hquoted b (List.mem_cons_of_mem _ hb)
    have hws : (ws.map Whitespace.char).filter kept = ws.map Whitespace.char := by
      rw [List.filter_eq_self]
      exact fun c hc => hkept c (List.mem_append_left _ (List.mem_append_left _ hc))
    rw [List.append_assoc, clean_quiet fun c hc => (whitespace_quiet ws c hc).2, hws]
    cases l with
    | word w => rw [Lexeme.chars, clean_word, hrest]
    | quoted b =>
      obtain ⟨htrap, hb⟩ := hquoted b List.mem_cons_self
      simp only [Lexeme.chars, List.cons_append, List.append_assoc, List.nil_append]
      rw [clean_quote, clean_chars htrap, hb, hrest]

theorem cleanJsonStringFull_toList (text : String) :
    (cleanJsonStringFull text.toUTF8).toList = clean text.toList := by
  rw [cleanJsonStringFull, fromUtf8Lossy_toUTF8, String.toList_ofList]

theorem isText_cleaned {j : Json Number Body} {text : List Char} (h : IsText j text)
    (htrap : ∀ b ∈ strings j, ¬ Trap b) : IsText (j.map cleanBody) (clean text) := by
  rw [IsText, lexemes_map]
  exact clean_spaced h fun b hb => htrap b (mem_strings.mpr hb)

theorem mem_strings_map {j : Json Number Body} {b : Body} :
    b ∈ strings (j.map cleanBody) ↔ ∃ b' ∈ strings j, b = cleanBody b' := by
  rw [mem_strings, lexemes_map, List.mem_map]
  constructor
  · rintro ⟨l, hl, hb⟩
    cases l with
    | word w => cases hb
    | quoted b' =>
      cases hb
      exact ⟨b', mem_strings.mpr hl, rfl⟩
  · rintro ⟨b', hb', rfl⟩
    exact ⟨.quoted b', mem_strings.mp hb', rfl⟩

/-- A text with the strings of `j`, cleaned, comes from a text without traps. -/
theorem no_trap_of_content {j j' : Json Number Body} {text : List Char} (h : IsText j text)
    (h' : IsText j' (clean text)) (hcontent : j'.map content = j.map (content ∘ cleanBody)) :
    ∀ b ∈ strings j, ¬ Trap b := by
  intro b hb htrap
  have hscan := scan_spaced h'
  rw [← lexemes_map, hcontent, lexemes_map] at hscan
  have hlt := ((scan_clean h).1 _ hscan).2 ⟨b, mem_strings.mp hb, htrap⟩
  exact absurd hlt (Nat.lt_irrefl _)

/-- The text is cleaned without harm exactly when no string or key has a trap once its escaped
nulls and raw control characters are dropped. -/
theorem clean_text_iff {j : Json Number Body} {text : String} (h : IsText j text.toList) :
    CleanText j (cleanJsonStringFull text.toUTF8) ↔ ∀ b ∈ strings j, ¬ Trap (cleanBody b) := by
  constructor
  · rintro ⟨⟨j', hj', hcontent, -⟩, hagain⟩ b hb
    rw [cleanJsonStringFull_toList] at hj'
    have htext := isText_cleaned h (no_trap_of_content h hj' hcontent)
    have hfixed : clean (clean text.toList) = clean text.toList := by
      rw [← cleanJsonStringFull_toList text, ← cleanJsonStringFull_toList, hagain]
    rw [← hfixed] at hj'
    apply no_trap_of_content htext hj'
    · rw [hcontent, Json.map_map]
      congr 1
      funext b
      simp [cleanBody_cleanBody]
    · exact mem_strings_map.mpr ⟨b, hb, rfl⟩
  · intro htrap
    have htext := isText_cleaned h fun b hb htrap' => htrap b hb htrap'.cleanBody
    rw [← cleanJsonStringFull_toList] at htext
    constructor
    · refine ⟨j.map cleanBody, htext, j.map_map cleanBody content, ?_⟩
      intro b hb e he
      obtain ⟨b, -, rfl⟩ := mem_strings_map.mp hb
      have hkept := (List.mem_filter.mp he).2
      simp only [dropped, Bool.not_or, Bool.and_eq_true, Bool.not_eq_true'] at hkept
      exact hkept.1
    · apply String.toList_inj.mp
      rw [cleanJsonStringFull_toList]
      apply clean_fixed htext
      · intro c hc
        rw [cleanJsonStringFull_toList] at hc
        exact (List.mem_filter.mp hc).2
      · intro b hb
        obtain ⟨b', hb', rfl⟩ := mem_strings_map.mp (mem_strings.mpr hb)
        exact ⟨htrap b' hb', cleanBody_cleanBody b'⟩

/-- The characters as they are; there are no quotes or backslashes among them. -/
def spelled (s : String) : Body :=
  s.toList.filterMap fun c =>
    if h : 0x20 ≤ c.toNat ∧ c ≠ '"' ∧ c ≠ '\\' then some (.plain ⟨c, h⟩) else none

def zero : HexDigit := ⟨0, false⟩

def commentValue : Json Number Body :=
  .object [(spelled "comment", .string (.unicode zero zero zero zero :: spelled "paid" ++
    .escape .reverseSolidus :: spelled "u0041"))]

def commentText : String := "\x7b\"comment\":\"\\u0000paid\\\\u0041\"\x7d"

/-- An escaped null is deleted, an escaped backslash stays. -/
theorem clean_text_comment : IsText commentValue commentText.toList ∧
    CleanText commentValue
      (cleanJsonStringFull commentText.toUTF8) := by
  have htext : IsText commentValue commentText.toList :=
    .cons [] (.cons [] (.cons [] (.cons [] (.cons [] (.nil [])))))
  refine ⟨htext, (clean_text_iff htext).mpr ?_⟩
  decide

/-- The string that consists of a backslash and the letters `u0000`. -/
def nullLettersValue : Json Number Body := .string (.escape .reverseSolidus :: nullElements)

/-- One half of the escaped backslash is left, and it escapes the quote. -/
theorem escaped_backslash_broken : IsText nullLettersValue "\"\\\\u0000\"".toList ∧
    cleanJsonStringFull "\"\\\\u0000\"".toUTF8 = "\"\\\"" ∧
    (∀ j', ¬ IsText j' "\"\\\"".toList) ∧
    ¬ CleanText nullLettersValue (cleanJsonStringFull "\"\\\\u0000\"".toUTF8) := by
  have htext : IsText nullLettersValue "\"\\\\u0000\"".toList := .cons [] (.nil [])
  have hclean : cleanJsonStringFull "\"\\\\u0000\"".toUTF8 = "\"\\\"" := by
    apply String.toList_inj.mp
    rw [cleanJsonStringFull_toList]
    rfl
  have hbroken : ∀ j', ¬ IsText j' "\"\\\"".toList := by
    intro j' hj'
    have hscan := scan_spaced hj'
    have hnone : scan .outside "\"\\\"".toList = none := rfl
    rw [hnone] at hscan
    cases hscan
  refine ⟨htext, hclean, hbroken, ?_⟩
  rw [hclean]
  rintro ⟨⟨j', hj', -⟩, -⟩
  exact hbroken j' hj'

end Cleaning

end JsonCleaning
