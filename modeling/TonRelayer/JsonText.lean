import TonRelayer.JsonTrees

/-! JSON as text: a value is a list of lexemes, a text has white space between them.
A scanner that only watches quotes and backslashes counts the code units of the strings of every
text; it tells a string from what is around it. -/
namespace JsonText

open JsonTrees

/-- A graphic ASCII character with no meaning to the scanner. -/
def Bare (c : Char) : Prop := 0x21 ≤ c.toNat ∧ c.toNat ≤ 0x7E ∧ c ≠ '"' ∧ c ≠ '\\'

instance (c : Char) : Decidable (Bare c) := inferInstanceAs (Decidable (_ ∧ _))

-- There are too many characters to try them all.
instance (cs : List Char) : Decidable (∀ c ∈ cs, Bare c) := List.decidableBAll _ cs

section Strings

abbrev PlainChar := {c : Char // 0x20 ≤ c.toNat ∧ c ≠ '"' ∧ c ≠ '\\'}

structure HexDigit where
  value : Fin 16
  upper : Bool
  deriving DecidableEq, Repr

def HexDigit.char (d : HexDigit) : Char :=
  if d.upper then (Nat.digitChar d.value).toUpper else Nat.digitChar d.value

inductive Escape where
  | quote
  | reverseSolidus
  | solidus
  | backspace
  | formFeed
  | lineFeed
  | carriageReturn
  | tab
  deriving DecidableEq, Repr

def Escape.letter : Escape → Char
  | quote => '"'
  | reverseSolidus => '\\'
  | solidus => '/'
  | backspace => 'b'
  | formFeed => 'f'
  | lineFeed => 'n'
  | carriageReturn => 'r'
  | tab => 't'

def Escape.unit : Escape → ℕ
  | quote => 0x22
  | reverseSolidus => 0x5C
  | solidus => 0x2F
  | backspace => 0x08
  | formFeed => 0x0C
  | lineFeed => 0x0A
  | carriageReturn => 0x0D
  | tab => 0x09

inductive Element where
  | plain (c : PlainChar)
  | escape (e : Escape)
  | unicode (a b c d : HexDigit)
  deriving DecidableEq

/-- What stands between the quotes of a string or a key. -/
abbrev Body := List Element

def Element.chars : Element → List Char
  | plain c => [c.val]
  | escape e => ['\\', e.letter]
  | unicode a b c d => ['\\', 'u', a.char, b.char, c.char, d.char]

def utf16 (c : Char) : List ℕ :=
  if c.toNat < 0x10000 then [c.toNat]
  else [0xD800 + (c.toNat - 0x10000) / 0x400, 0xDC00 + (c.toNat - 0x10000) % 0x400]

def Element.units : Element → List ℕ
  | plain c => utf16 c.val
  | escape e => [e.unit]
  | unicode a b c d => [((a.value * 16 + b.value) * 16 + c.value) * 16 + d.value]

def chars (b : Body) : List Char := b.flatMap Element.chars

/-- What the string says, in UTF-16 code units. -/
def content (b : Body) : List ℕ := b.flatMap Element.units

@[simp] theorem chars_nil : chars [] = [] := rfl

@[simp] theorem chars_cons (e : Element) (b : Body) : chars (e :: b) = e.chars ++ chars b := rfl

@[simp] theorem content_nil : content [] = [] := rfl

@[simp] theorem content_cons (e : Element) (b : Body) : content (e :: b) = e.units ++ content b :=
  rfl

theorem utf16_ne_nil (c : Char) : utf16 c ≠ [] := by
  rw [utf16]
  split
  · simp
  · simp

theorem HexDigit.char_bare (d : HexDigit) : Bare d.char := by
  obtain ⟨v, upper⟩ := d
  revert v upper
  decide

theorem HexDigit.char_zero (d : HexDigit) : d.char = '0' ↔ d.value = 0 := by
  obtain ⟨v, upper⟩ := d
  revert v upper
  decide

end Strings

section Lexemes

/-- What is written outside of strings: a bracket, a separator, a literal or a number. -/
structure Word where
  chars : List Char
  bare : ∀ c ∈ chars, Bare c

inductive Lexeme (S : Type) where
  | word (w : Word)
  | quoted (s : S)

def Lexeme.map {S S' : Type} (f : S → S') : Lexeme S → Lexeme S'
  | word w => word w
  | quoted s => quoted (f s)

abbrev Digit := Fin 10

structure Exponent where
  upper : Bool
  sign : Option Bool
  digits : List Digit
  nonempty : digits ≠ []

structure Number where
  negative : Bool
  whole : List Digit
  fraction : Option {digits : List Digit // digits ≠ []}
  exponent : Option Exponent
  nonempty : whole ≠ []
  leading : whole.head? = some 0 → whole = [0]

def digitChars (ds : List Digit) : List Char := ds.map fun d => Nat.digitChar d.val

def signChars : Option Bool → List Char
  | none => []
  | some true => ['+']
  | some false => ['-']

def Exponent.chars (e : Exponent) : List Char :=
  (if e.upper then 'E' else 'e') :: signChars e.sign ++ digitChars e.digits

def Number.chars (n : Number) : List Char :=
  (if n.negative then ['-'] else []) ++ digitChars n.whole ++
    (match n.fraction with
      | none => []
      | some digits => '.' :: digitChars digits.val) ++
    (match n.exponent with
      | none => []
      | some e => e.chars)

theorem digitChars_bare (ds : List Digit) : ∀ c ∈ digitChars ds, Bare c := by
  have hdigit : ∀ d : Digit, Bare (Nat.digitChar d.val) := by decide
  intro c hc
  obtain ⟨d, -, rfl⟩ := List.mem_map.mp hc
  exact hdigit d

theorem Exponent.chars_bare (e : Exponent) : ∀ c ∈ e.chars, Bare c := by
  have hsign : ∀ c ∈ signChars e.sign, Bare c := by
    rcases e.sign with _ | _ | _ <;> decide
  have hletter : Bare (if e.upper then 'E' else 'e') := by
    split <;> decide
  intro c hc
  rw [Exponent.chars, List.cons_append, List.mem_cons, List.mem_append] at hc
  rcases hc with rfl | hc | hc
  · exact hletter
  · exact hsign c hc
  · exact digitChars_bare _ c hc

theorem Number.chars_bare (n : Number) : ∀ c ∈ n.chars, Bare c := by
  intro c hc
  rw [Number.chars] at hc
  simp only [List.mem_append] at hc
  rcases hc with ((hc | hc) | hc) | hc
  · split at hc
    · cases List.mem_singleton.mp hc
      decide
    · cases hc
  · exact digitChars_bare _ c hc
  · split at hc
    · cases hc
    · rcases List.mem_cons.mp hc with rfl | hc
      · decide
      · exact digitChars_bare _ c hc
  · split at hc
    · cases hc
    · exact Exponent.chars_bare _ c hc

def Number.word (n : Number) : Word := ⟨n.chars, n.chars_bare⟩

variable {S S' : Type}

def literal (w : String) (h : ∀ c ∈ w.toList, Bare c) : Lexeme S := .word ⟨w.toList, h⟩

def punctuation (c : Char) (h : Bare c) : Lexeme S := .word ⟨[c], by simpa using h⟩

/-- With commas between them. -/
def separated : List (List (Lexeme S)) → List (Lexeme S)
  | [] => []
  | [ls] => ls
  | ls :: next :: rest => ls ++ punctuation ',' (by decide) :: separated (next :: rest)

mutual

def lexemes : Json Number S → List (Lexeme S)
  | .null => [literal "null" (by decide)]
  | .bool true => [literal "true" (by decide)]
  | .bool false => [literal "false" (by decide)]
  | .number n => [.word n.word]
  | .string s => [.quoted s]
  | .array items =>
    punctuation '[' (by decide) :: separated (itemLexemes items) ++ [punctuation ']' (by decide)]
  | .object members =>
    punctuation '\x7b' (by decide) :: separated (memberLexemes members) ++
      [punctuation '\x7d' (by decide)]

def itemLexemes : List (Json Number S) → List (List (Lexeme S))
  | [] => []
  | j :: js => lexemes j :: itemLexemes js

def memberLexemes : List (S × Json Number S) → List (List (Lexeme S))
  | [] => []
  | (k, j) :: ms => (.quoted k :: punctuation ':' (by decide) :: lexemes j) :: memberLexemes ms

end

theorem itemLexemes_eq (js : List (Json Number S)) : itemLexemes js = js.map lexemes := by
  induction js with
  | nil => rw [itemLexemes, List.map_nil]
  | cons j js ih => rw [itemLexemes, ih, List.map_cons]

theorem memberLexemes_eq (ms : List (S × Json Number S)) : memberLexemes ms =
    ms.map fun m => .quoted m.1 :: punctuation ':' (by decide) :: lexemes m.2 := by
  induction ms with
  | nil => rw [memberLexemes, List.map_nil]
  | cons m ms ih => rw [memberLexemes, ih, List.map_cons]

theorem separated_map (f : S → S') (lss : List (List (Lexeme S))) :
    separated (lss.map fun ls => ls.map (Lexeme.map f)) = (separated lss).map (Lexeme.map f) := by
  induction lss with
  | nil => rfl
  | cons ls lss ih =>
    cases lss with
    | nil => rfl
    | cons next rest =>
      simp only [List.map_cons, separated, List.map_append] at ih ⊢
      rw [ih]
      rfl

theorem lexemes_map (f : S → S') (j : Json Number S) :
    lexemes (j.map f) = (lexemes j).map (Lexeme.map f) := by
  induction j using Json.induction with
  | null => simp [Json.map, lexemes, literal, Lexeme.map]
  | bool b => cases b <;> simp [Json.map, lexemes, literal, Lexeme.map]
  | number n => simp [Json.map, lexemes, Lexeme.map]
  | string s => simp [Json.map, lexemes, Lexeme.map]
  | array items ih =>
    have hitems : itemLexemes (mapItems f items) =
        (itemLexemes items).map fun ls => ls.map (Lexeme.map f) := by
      rw [itemLexemes_eq, itemLexemes_eq, mapItems_eq, List.map_map, List.map_map]
      apply List.map_congr_left
      intro j hj
      exact ih j hj
    simp only [Json.map, lexemes, hitems, separated_map, List.map_append, List.map_cons]
    rfl
  | object members ih =>
    have hmembers : memberLexemes (mapMembers f members) =
        (memberLexemes members).map fun ls => ls.map (Lexeme.map f) := by
      rw [memberLexemes_eq, memberLexemes_eq, mapMembers_eq, List.map_map, List.map_map]
      apply List.map_congr_left
      intro m hm
      simp [ih m hm, Lexeme.map, punctuation]
    simp only [Json.map, lexemes, hmembers, separated_map, List.map_append, List.map_cons]
    rfl

end Lexemes

section Texts

inductive Whitespace where
  | space
  | tab
  | lineFeed
  | carriageReturn
  deriving DecidableEq, Repr

def Whitespace.char : Whitespace → Char
  | space => ' '
  | tab => '\t'
  | lineFeed => '\n'
  | carriageReturn => '\r'

def Lexeme.chars : Lexeme Body → List Char
  | word w => w.chars
  | quoted b => '"' :: JsonText.chars b ++ ['"']

/-- The lexemes, with any white space before, between and after them. -/
inductive Spaced : List (Lexeme Body) → List Char → Prop where
  | nil (ws : List Whitespace) : Spaced [] (ws.map Whitespace.char)
  | cons (ws : List Whitespace) {l : Lexeme Body} {ls : List (Lexeme Body)} {text : List Char} :
    Spaced ls text → Spaced (l :: ls) (ws.map Whitespace.char ++ l.chars ++ text)

/-- `text` is a JSON text, and `j` is what it says. -/
def IsText (j : Json Number Body) (text : List Char) : Prop := Spaced (lexemes j) text

end Texts

section Scanner

inductive Place where
  | outside
  | inside
  | escaped
  | digits (left : ℕ)

/-- The number of code units in the strings of a text that ends outside of them. -/
def scan : Place → List Char → Option ℕ
  | .outside, [] => some 0
  | .inside, [] => none
  | .escaped, [] => none
  | .digits _, [] => none
  | .outside, c :: cs =>
    if c = '"' then scan .inside cs else if c = '\\' then none else scan .outside cs
  | .inside, c :: cs =>
    if c = '"' then scan .outside cs else if c = '\\' then scan .escaped cs
    else (scan .inside cs).map (· + (utf16 c).length)
  | .escaped, c :: cs =>
    if c = 'u' then scan (.digits 3) cs else (scan .inside cs).map (· + 1)
  | .digits 0, c :: cs =>
    if c = '"' ∨ c = '\\' then none else (scan .inside cs).map (· + 1)
  | .digits (n + 1), c :: cs => if c = '"' ∨ c = '\\' then none else scan (.digits n) cs

theorem scan_element (e : Element) (cs : List Char) :
    scan .inside (e.chars ++ cs) = (scan .inside cs).map (· + e.units.length) := by
  cases e with
  | plain c =>
    obtain ⟨c, -, hquote, hsolidus⟩ := c
    simp [Element.chars, Element.units, scan, hquote, hsolidus]
  | escape e => cases e <;> simp [Element.chars, Element.units, scan, Escape.letter]
  | unicode a b c d =>
    have hhex (x : HexDigit) : ¬ (x.char = '"' ∨ x.char = '\\') :=
      not_or.mpr ⟨x.char_bare.2.2.1, x.char_bare.2.2.2⟩
    simp only [Element.chars, List.cons_append, List.nil_append, scan]
    simp [hhex, Element.units]

theorem scan_chars (b : Body) (cs : List Char) :
    scan .inside (chars b ++ cs) = (scan .inside cs).map (· + (content b).length) := by
  induction b with
  | nil => simp
  | cons e b ih =>
    rw [chars_cons, List.append_assoc, scan_element, ih, content_cons, Option.map_map]
    congr 1
    funext n
    simp only [Function.comp_apply, List.length_append]
    omega

def total : List (Lexeme (List ℕ)) → ℕ
  | [] => 0
  | .word _ :: ls => total ls
  | .quoted units :: ls => units.length + total ls

/-- A character that the scanner skips outside of strings. -/
theorem scan_outside {cs : List Char} (h : ∀ c ∈ cs, c ≠ '"' ∧ c ≠ '\\') (rest : List Char) :
    scan .outside (cs ++ rest) = scan .outside rest := by
  induction cs with
  | nil => rfl
  | cons c cs ih =>
    obtain ⟨hquote, hsolidus⟩ := h c List.mem_cons_self
    rw [List.cons_append, scan, if_neg hquote, if_neg hsolidus,
      ih fun c hc => h c (List.mem_cons_of_mem _ hc)]

theorem whitespace_quiet (ws : List Whitespace) :
    ∀ c ∈ ws.map Whitespace.char, c ≠ '"' ∧ c ≠ '\\' := by
  intro c hc
  obtain ⟨w, -, rfl⟩ := List.mem_map.mp hc
  cases w <;> decide

theorem Word.quiet (w : Word) : ∀ c ∈ w.chars, c ≠ '"' ∧ c ≠ '\\' :=
  fun c hc => (w.bare c hc).2.2

theorem scan_spaced {ls : List (Lexeme Body)} {text : List Char} (h : Spaced ls text) :
    scan .outside text = some (total (ls.map (Lexeme.map content))) := by
  induction h with
  | nil ws =>
    have hend := scan_outside (whitespace_quiet ws) []
    rwa [List.append_nil] at hend
  | cons ws h ih =>
    rename_i l ls text
    rw [List.append_assoc, scan_outside (whitespace_quiet ws)]
    cases l with
    | word w =>
      rw [Lexeme.chars, scan_outside w.quiet, ih]
      rfl
    | quoted b =>
      rw [Lexeme.chars, List.append_assoc, List.cons_append, scan, if_pos rfl, scan_chars,
        List.singleton_append, scan, if_pos rfl, ih]
      simp only [Option.map_some, List.map_cons, Lexeme.map, total]
      rw [Nat.add_comm]

end Scanner

end JsonText
