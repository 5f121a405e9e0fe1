import PeerMesh.Text.Decimal
import PeerMesh.Text.Json
import Mathlib.Algebra.Order.Field.Rat
import Mathlib.Data.List.DropRight

/-!
# Reading JSON

A reader for all of JSON, and what it makes of the documents that are written.

* `Json.Value` : what a JSON text stands for;
* `Json.string?`, `Json.number?`, `Json.enclosed?`, `Json.value?`, `Json.read?` : the reader. Each part of it hands over what
  comes after the part that it has read;
* `Json.Ends`, `Json.Shows` : what is written is read as what it stands for, if nothing comes after it that would go on
  with a number;
* `Json.string?_quoted`, `Json.number?_toString`, `Json.enclosed?_block` : texts, numbers and lists;
* `Json.read?_pretty` : every document is read as the value that was written.
-/

namespace PeerMesh.Text.Json

/-- What a JSON text stands for. -/
inductive Value where
  | null
  | bool (value : Bool)
  | number (value : ℚ)
  | text (value : String)
  | list (items : List Value)
  /-- Fields in the order in which they are written. -/
  | object (fields : List (String × Value))
  deriving Inhabited

/-! ## The reader -/

def isBlank (c : Char) : Bool := c = ' ' || c = '\t' || c = '\n' || c = '\r'

def skipBlank (cs : List Char) : List Char := cs.dropWhile isBlank

def unescape? (c : Char) : Option Nat :=
  if c = '"' ∨ c = '\\' ∨ c = '/' then some c.toNat
  else if c = 'b' then some 0x08
  else if c = 'f' then some 0x0C
  else if c = 'n' then some 0x0A
  else if c = 'r' then some 0x0D
  else if c = 't' then some 0x09
  else none

def hexUnit? (a b c d : Char) : Option Nat :=
  match Hex.value? a, Hex.value? b, Hex.value? c, Hex.value? d with
  | some a, some b, some c, some d => some (((a * 16 + b) * 16 + c) * 16 + d)
  | _, _, _, _ => none

def ahead (unit : Nat) (read : List Nat × List Char) : List Nat × List Char := (unit :: read.1, read.2)

/-- The characters of a string up to the quote that ends it, each as its number. Two halves of one character count as
two. -/
def units? : List Char → Option (List Nat × List Char)
  | [] => none
  | c :: rest =>
    if c = '"' then some ([], rest)
    else if c = '\\' then
      match rest with
      | [] => none
      | e :: rest =>
        if e = 'u' then
          match rest with
          | a :: b :: c :: d :: rest => (hexUnit? a b c d).bind fun unit => (units? rest).map (ahead unit)
          | _ => none
        else (unescape? e).bind fun unit => (units? rest).map (ahead unit)
    else if c.toNat < 0x20 then none
    else (units? rest).map (ahead c.toNat)

/-- Puts the halves of characters together. A half alone is none. -/
def joined? : List Nat → Option (List Char)
  | [] => some []
  | unit :: units =>
    if 0xD800 ≤ unit ∧ unit < 0xDC00 then
      match units with
      | low :: units =>
        if 0xDC00 ≤ low ∧ low < 0xE000 then
          (joined? units).map (Char.ofNat (0x10000 + (unit - 0xD800) * 0x400 + (low - 0xDC00)) :: ·)
        else none
      | [] => none
    else if 0xDC00 ≤ unit ∧ unit < 0xE000 then none
    else (joined? units).map (Char.ofNat unit :: ·)

def string? (cs : List Char) : Option (String × List Char) :=
  match units? cs with
  | some (units, rest) => (joined? units).map fun text => (String.ofList text, rest)
  | none => none

/-- The digits of a number behind its point, if it has one. -/
def fraction? : List Char → Option (List Char × List Char)
  | '.' :: cs =>
    if cs.takeWhile Char.isDigit = [] then none else some (cs.takeWhile Char.isDigit, cs.dropWhile Char.isDigit)
  | cs => some ([], cs)

def sign : List Char → Int × List Char
  | '-' :: cs => (-1, cs)
  | '+' :: cs => (1, cs)
  | cs => (1, cs)

/-- The power of ten that a number is to be multiplied by, if it has one. -/
def exponent? : List Char → Option (Int × List Char)
  | [] => some (0, [])
  | c :: cs =>
    if c = 'e' ∨ c = 'E' then
      let (sign, cs) := sign cs
      if cs.takeWhile Char.isDigit = [] then none
      else some (sign * digitsValue (cs.takeWhile Char.isDigit), cs.dropWhile Char.isDigit)
    else some (0, c :: cs)

def unsigned? (cs : List Char) : Option (ℚ × List Char) :=
  let whole := cs.takeWhile Char.isDigit
  if whole = [] ∨ (whole.head? = some '0' ∧ 1 < whole.length) then none
  else
    match fraction? (cs.dropWhile Char.isDigit) with
    | none => none
    | some (decimals, cs) =>
      (exponent? cs).map fun (exponent, cs) =>
        (digitsValue (whole ++ decimals) * 10 ^ (exponent - decimals.length), cs)

def number? : List Char → Option (ℚ × List Char)
  | '-' :: cs => (unsigned? cs).map fun (value, cs) => (-value, cs)
  | cs => unsigned? cs

section

variable {α : Type} (item? : List Char → Option (α × List Char)) (closing : Char)

/-- One item or more with commas between them, up to what closes the list. There are no more than `n`. -/
def items? : Nat → List Char → Option (List α × List Char)
  | 0, _ => none
  | n + 1, cs =>
    match item? cs with
    | none => none
    | some (item, cs) =>
      match skipBlank cs with
      | [] => none
      | c :: cs =>
        if c = ',' then (items? n cs).map fun (items, cs) => (item :: items, cs)
        else if c = closing then some ([item], cs)
        else none

def enclosed? (cs : List Char) : Option (List α × List Char) :=
  match skipBlank cs with
  | [] => none
  | c :: rest => if c = closing then some ([], rest) else items? item? closing cs.length cs

def field? (cs : List Char) : Option ((String × α) × List Char) :=
  match skipBlank cs with
  | '"' :: cs =>
    match string? cs with
    | none => none
    | some (name, cs) =>
      match skipBlank cs with
      | ':' :: cs => (item? cs).map fun (item, cs) => ((name, item), cs)
      | _ => none
  | _ => none

end

def keyword? (word : String) (value : Value) (cs : List Char) : Option (Value × List Char) :=
  if word.toList.isPrefixOf cs then some (value, cs.drop word.length) else none

/-- A value, with less than `n` others around each that it is made of. -/
def value? : Nat → List Char → Option (Value × List Char)
  | 0, _ => none
  | n + 1, cs =>
    match skipBlank cs with
    | [] => none
    | c :: rest =>
      if c = '-' ∨ c.isDigit then (number? (c :: rest)).map fun (value, rest) => (.number value, rest)
      else if c = '"' then (string? rest).map fun (value, rest) => (.text value, rest)
      else if c = '[' then (enclosed? (value? n) ']' rest).map fun (items, rest) => (.list items, rest)
      else if c = '\x7b' then
        (enclosed? (field? (value? n)) '\x7d' rest).map fun (fields, rest) => (.object fields, rest)
      else if c = 't' then keyword? "true" (.bool true) (c :: rest)
      else if c = 'f' then keyword? "false" (.bool false) (c :: rest)
      else if c = 'n' then keyword? "null" .null (c :: rest)
      else none

/-- The value that a whole text stands for, if it is JSON. No value lies deeper in it than it has characters. -/
def read? (text : String) : Option Value :=
  match value? text.length text.toList with
  | some (value, rest) => if skipBlank rest = [] then some value else none
  | none => none

/-! ## Blanks -/

theorem skipBlank_append {blank : List Char} (h : ∀ c ∈ blank, isBlank c) (cs : List Char) :
    skipBlank (blank ++ cs) = skipBlank cs :=
  List.dropWhile_append_of_pos h

theorem skipBlank_of_not {c : Char} (h : isBlank c = false) (cs : List Char) : skipBlank (c :: cs) = c :: cs :=
  List.dropWhile_cons_of_neg (by rw [h]; decide)

theorem skipBlank_skipBlank (cs : List Char) : skipBlank (skipBlank cs) = skipBlank cs :=
  List.dropWhile_idempotent _ cs

theorem toList_margin (depth : Nat) : (margin depth).toList = List.replicate (2 * depth) ' ' := by
  have hpush : ∀ n, ("".pushn ' ' n).toList = List.replicate n ' ' := by
    intro n
    induction n with
    | zero => rfl
    | succ n ih =>
      show (("".pushn ' ' n).push ' ').toList = _
      rw [String.toList_push, ih, List.replicate_succ']
  exact hpush _

/-! ## Texts -/

theorem hexUnit?_control {n : Nat} (h : n < 0x20) :
    hexUnit? '0' '0' (Hex.digit (n / 16)) (Hex.digit (n % 16)) = some n := by
  revert n
  decide

theorem units?_quote (rest : List Char) : units? ('"' :: rest) = some ([], rest) := by
  rw [units?.eq_def]
  simp

theorem units?_pair {e : Char} (he : e ≠ 'u') {unit : Nat} (hunit : unescape? e = some unit) (rest : List Char) :
    units? ('\\' :: e :: rest) = (units? rest).map (ahead unit) := by
  rw [units?.eq_def]
  simp [he, hunit]

theorem units?_plain {c : Char} (hquote : c ≠ '"') (hslash : c ≠ '\\') (hprint : ¬c.toNat < 0x20) (rest : List Char) :
    units? (c :: rest) = (units? rest).map (ahead c.toNat) := by
  rw [units?.eq_def]
  simp [hquote, hslash, hprint]

theorem units?_control {c : Char} (h : c.toNat < 0x20) (rest : List Char) :
    units? ('\\' :: 'u' :: '0' :: '0' :: Hex.digit (c.toNat / 16) :: Hex.digit (c.toNat % 16) :: rest) =
      (units? rest).map (ahead c.toNat) := by
  rw [units?.eq_def]
  simp [hexUnit?_control h]

/-- However a character is written, it is read as itself. -/
theorem units?_escape (c : Char) (rest : List Char) :
    units? ((escape c).toList ++ rest) = (units? rest).map (ahead c.toNat) := by
  by_cases hshort : c ∈ ['"', '\\', '\n', '\r', '\t', '\x08', '\x0c']
  · simp only [List.mem_cons, List.not_mem_nil, or_false] at hshort
    rcases hshort with rfl | rfl | rfl | rfl | rfl | rfl | rfl <;> exact units?_pair (by decide) rfl rest
  · simp only [List.mem_cons, List.not_mem_nil, or_false, not_or] at hshort
    obtain ⟨hquote, hslash, hline, hreturn, htab, hbackspace, hfeed⟩ := hshort
    unfold escape
    rw [if_neg hquote, if_neg hslash, if_neg hline, if_neg hreturn, if_neg htab, if_neg hbackspace, if_neg hfeed]
    split
    · rename_i hcontrol
      simp only [String.toList_append, String.toList_ofList]
      exact units?_control hcontrol rest
    · rename_i hprint
      rw [Char.toString, String.toList_singleton]
      exact units?_plain hquote hslash hprint rest

theorem units?_escaped (cs rest : List Char) :
    units? (cs.flatMap (fun c => (escape c).toList) ++ '"' :: rest) = some (cs.map Char.toNat, rest) := by
  induction cs with
  | nil => exact units?_quote rest
  | cons c cs ih =>
    rw [List.flatMap_cons, List.append_assoc, units?_escape, ih]
    rfl

theorem joined?_map_toNat (cs : List Char) : joined? (cs.map Char.toNat) = some cs := by
  induction cs with
  | nil => rfl
  | cons c cs ih =>
    have hvalid : c.toNat < 0xD800 ∨ 0xDFFF < c.toNat ∧ c.toNat < 0x110000 := c.valid
    have hhigh : ¬(0xD800 ≤ c.toNat ∧ c.toNat < 0xDC00) := by omega
    have hlow : ¬(0xDC00 ≤ c.toNat ∧ c.toNat < 0xE000) := by omega
    unfold joined?
    simp only [List.map_cons, if_neg hhigh, if_neg hlow, ih, Option.map_some, Char.ofNat_toNat]

theorem toList_quoted (s : String) :
    (quoted s).toList = '"' :: (s.toList.flatMap (fun c => (escape c).toList) ++ ['"']) := by
  unfold quoted
  rw [String.toList_append, String.toList_append, String.toList_join, List.flatMap_map]
  rfl

theorem string?_quoted (s : String) :
    ∃ cs, (quoted s).toList = '"' :: cs ∧ ∀ rest, string? (cs ++ rest) = some (s, rest) := by
  refine ⟨_, toList_quoted s, fun rest => ?_⟩
  have hunits : units? (s.toList.flatMap (fun c => (escape c).toList) ++ ['"'] ++ rest) =
      some (s.toList.map Char.toNat, rest) := by
    rw [List.append_assoc]
    exact units?_escaped s.toList rest
  simp only [string?, hunits, joined?_map_toNat, Option.map_some, String.ofList_toList]

/-! ## Numbers -/

/-- Nothing that a number could go on with. -/
def Ends (rest : List Char) : Prop := ∀ c ∈ rest.head?, c.isDigit = false ∧ c ≠ '.' ∧ c ≠ 'e' ∧ c ≠ 'E'

theorem takeWhile_digits {ds rest : List Char} (hds : ∀ c ∈ ds, c.isDigit) (hrest : Ends rest) :
    (ds ++ rest).takeWhile Char.isDigit = ds ∧ (ds ++ rest).dropWhile Char.isDigit = rest := by
  rw [List.takeWhile_append_of_pos hds, List.dropWhile_append_of_pos hds]
  cases rest with
  | nil => simp
  | cons c rest =>
    have hc := (hrest c rfl).1
    simp [hc]

theorem fraction?_of_ends {rest : List Char} (h : Ends rest) : fraction? rest = some ([], rest) := by
  unfold fraction?
  split
  · exact absurd rfl (h '.' rfl).2.1
  · rfl

theorem exponent?_of_ends {rest : List Char} (h : Ends rest) : exponent? rest = some (0, rest) := by
  cases rest with
  | nil => rfl
  | cons c rest =>
    have hc : ¬(c = 'e' ∨ c = 'E') := not_or.2 (h c rfl).2.2
    rw [exponent?, if_neg hc]

theorem head?_toDigits_ne {n : Nat} (h : n ≠ 0) : (Nat.toDigits 10 n).head? ≠ some '0' := by
  induction n using Nat.strongRecOn with
  | ind n ih =>
    by_cases hsmall : n < 10
    · have hdigit : ∀ m < 10, m ≠ 0 → [Nat.digitChar m].head? ≠ some '0' := by decide
      rw [Nat.toDigits_of_lt_base hsmall]
      exact hdigit n hsmall h
    · have hfront := ih (n / 10) (by omega) (by omega)
      rw [Nat.toDigits_of_base_le (by decide) (by omega), List.head?_append_of_ne_nil _ Nat.toDigits_ne_nil]
      exact hfront

theorem unsigned?_repr (n : Nat) {rest : List Char} (hrest : Ends rest) :
    unsigned? (n.repr.toList ++ rest) = some ((n : ℚ), rest) := by
  have hdigits : ∀ c ∈ Nat.toDigits 10 n, c.isDigit :=
    fun c hc => Nat.isDigit_of_mem_toDigits (by decide) (by decide) hc
  obtain ⟨hwhole, hafter⟩ := takeWhile_digits hdigits hrest
  have hzero : ¬(Nat.toDigits 10 n = [] ∨ ((Nat.toDigits 10 n).head? = some '0' ∧ 1 < (Nat.toDigits 10 n).length)) := by
    rintro (hnil | ⟨hhead, hlength⟩)
    · exact Nat.toDigits_ne_nil hnil
    · by_cases hn : n = 0
      · subst hn
        exact absurd hlength (by decide)
      · exact head?_toDigits_ne hn hhead
  have hvalue : digitsValue (Nat.toDigits 10 n) = n := Nat.ofDigitChars_toDigits (by decide) (by decide)
  rw [Nat.toList_repr]
  unfold unsigned?
  simp only [hwhole, hafter, if_neg hzero, fraction?_of_ends hrest, exponent?_of_ends hrest, Option.map_some,
    List.append_nil, hvalue]
  simp

/-- The front of a text of digits is a digit. -/
theorem exists_digit_first (n : Nat) : ∃ c cs, n.repr.toList = c :: cs ∧ c.isDigit := by
  rw [Nat.toList_repr]
  obtain ⟨c, cs, hcs⟩ := List.exists_cons_of_ne_nil (Nat.toDigits_ne_nil (n := n) (b := 10))
  refine ⟨c, cs, hcs, Nat.isDigit_of_mem_toDigits (b := 10) (n := n) (by decide) (by decide) ?_⟩
  rw [hcs]
  exact List.mem_cons_self

theorem number?_of_ne {c : Char} (h : c ≠ '-') (cs : List Char) : number? (c :: cs) = unsigned? (c :: cs) := by
  unfold number?
  split
  · rename_i heq
    exact absurd (List.cons.inj heq).1 h
  · rfl

theorem exists_int_first (n : Int) : ∃ c cs, (toString n).toList = c :: cs ∧ (c = '-' ∨ c.isDigit) := by
  rw [Int.toString_eq_repr, Int.repr_eq_if]
  split
  · obtain ⟨c, cs, hcs, hc⟩ := exists_digit_first n.toNat
    exact ⟨c, cs, hcs, Or.inr hc⟩
  · refine ⟨'-', (-n).toNat.repr.toList, ?_, Or.inl rfl⟩
    rw [String.toList_append]
    rfl

theorem number?_toString (n : Int) {rest : List Char} (hrest : Ends rest) :
    number? ((toString n).toList ++ rest) = some ((n : ℚ), rest) := by
  rw [Int.toString_eq_repr, Int.repr_eq_if]
  split
  · rename_i hpos
    have hcast : ((n.toNat : Nat) : ℚ) = (n : ℚ) := by
      exact_mod_cast Int.toNat_of_nonneg hpos
    obtain ⟨c, cs, hcs, hdigit⟩ := exists_digit_first n.toNat
    have hc : c ≠ '-' := fun h => absurd (h ▸ hdigit) (by decide)
    have hunsigned := unsigned?_repr n.toNat hrest
    rw [hcs, List.cons_append] at hunsigned ⊢
    rw [number?_of_ne hc, hunsigned, hcast]
  · rename_i hneg
    have hcast : (((-n).toNat : Nat) : ℚ) = -(n : ℚ) := by
      have hint : (((-n).toNat : Nat) : Int) = -n := Int.toNat_of_nonneg (by omega)
      exact_mod_cast hint
    rw [String.toList_append]
    show (unsigned? ((-n).toNat.repr.toList ++ rest)).map _ = _
    rw [unsigned?_repr _ hrest, hcast, Option.map_some]
    simp only [neg_neg]

/-! ## Lists -/

/-- What an item is written as is read as the item. -/
def Shows {α : Type} (item? : List Char → Option (α × List Char)) (text : String) (item : α) : Prop :=
  ∀ rest, Ends rest → item? (text.toList ++ rest) = some (item, rest)

/-- A new line, with a margin. -/
def newLine (depth : Nat) (cs : List Char) : List Char := '\n' :: ((margin depth).toList ++ cs)

def lines (depth : Nat) (items : List String) : List Char :=
  '\n' :: (",\n".intercalate (items.map (margin (depth + 1) ++ ·))).toList

theorem lines_singleton (depth : Nat) (item : String) : lines depth [item] = newLine (depth + 1) item.toList := by
  unfold lines newLine
  simp

theorem lines_cons_cons (depth : Nat) (item next : String) (items : List String) :
    lines depth (item :: next :: items) = newLine (depth + 1) (item.toList ++ ',' :: lines depth (next :: items)) := by
  unfold lines newLine
  simp [String.toList_intercalate, List.intercalate]

theorem newLine_append (depth : Nat) (cs rest : List Char) : newLine depth cs ++ rest = newLine depth (cs ++ rest) := by
  simp [newLine]

theorem toList_block (opening closing : String) (depth : Nat) {items : List String} (h : items ≠ []) :
    (block opening closing depth items).toList =
      opening.toList ++ (lines depth items ++ newLine depth closing.toList) := by
  unfold block
  rw [if_neg (by simpa using h)]
  simp [lines, newLine]

theorem length_lines_cons (depth : Nat) (item : String) (items : List String) :
    item.length + (lines depth items).length < (lines depth (item :: items)).length := by
  have hline : ∀ cs, (newLine (depth + 1) cs).length = 1 + 2 * (depth + 1) + cs.length := by
    intro cs
    rw [newLine, toList_margin, List.length_cons, List.length_append, List.length_replicate]
    omega
  cases items with
  | nil =>
    have hnone : (lines depth []).length = 1 := rfl
    rw [hnone, lines_singleton, hline, String.length_toList]
    omega
  | cons next items =>
    rw [lines_cons_cons, hline, List.length_append, List.length_cons, String.length_toList]
    omega

theorem length_le_lines (depth : Nat) (items : List String) : items.length ≤ (lines depth items).length := by
  induction items with
  | nil => exact Nat.zero_le _
  | cons item items ih =>
    have hcons := length_lines_cons depth item items
    rw [List.length_cons]
    omega

theorem length_le_of_mem_lines (depth : Nat) {items : List String} {item : String} (h : item ∈ items) :
    item.length ≤ (lines depth items).length := by
  induction items with
  | nil => cases h
  | cons first items ih =>
    have hcons := length_lines_cons depth first items
    rcases List.mem_cons.1 h with rfl | hlater
    · omega
    · have hle := ih hlater
      omega

theorem skipBlank_newLine (depth : Nat) (cs : List Char) : skipBlank (newLine depth cs) = skipBlank cs := by
  have hmargin : ∀ c ∈ '\n' :: (margin depth).toList, isBlank c := by
    intro c hc
    rw [toList_margin, List.mem_cons, List.mem_replicate] at hc
    rcases hc with rfl | ⟨-, rfl⟩ <;> decide
  exact skipBlank_append hmargin cs

theorem ends_newLine (depth : Nat) (cs : List Char) : Ends (newLine depth cs) := by
  intro c hc
  cases hc
  decide

theorem ends_comma (cs : List Char) : Ends (',' :: cs) := by
  intro c hc
  cases hc
  decide

section

variable {α : Type} {item? : List Char → Option (α × List Char)} {closing : Char}

/-- An item may stand behind blanks, and it does not begin with the bracket that closes the list. -/
structure Begins (item? : List Char → Option (α × List Char)) (closing : Char) : Prop where
  blank : ∀ cs, item? (skipBlank cs) = item? cs
  first : ∀ cs item, item? cs = some item → ∃ c rest, skipBlank cs = c :: rest ∧ c ≠ closing

theorem Begins.newLine (h : Begins item? closing) (depth : Nat) (cs : List Char) : item? (newLine depth cs) = item? cs := by
  rw [← h.blank, skipBlank_newLine, h.blank]

theorem items?_lines (h : Begins item? closing) (hblank : isBlank closing = false) (hcomma : closing ≠ ',') (depth : Nat)
    {ts : List String} {xs : List α} (hshows : List.Forall₂ (Shows item?) ts xs) (hts : ts ≠ []) {n : Nat}
    (hn : ts.length ≤ n) (rest : List Char) :
    items? item? closing n (lines depth ts ++ newLine depth (closing :: rest)) = some (xs, rest) := by
  induction hshows generalizing n with
  | nil => exact absurd rfl hts
  | @cons t x ts xs hfirst hothers ih =>
    obtain ⟨n, rfl⟩ : ∃ m, n = m + 1 := Nat.exists_eq_succ_of_ne_zero (by rintro rfl; cases hn)
    cases hothers with
    | nil =>
      have hread := hfirst _ (ends_newLine depth (closing :: rest))
      have hend : skipBlank (newLine depth (closing :: rest)) = closing :: rest := by
        rw [skipBlank_newLine, skipBlank_of_not hblank]
      rw [lines_singleton, newLine_append]
      simp only [items?, h.newLine, hread, hend, if_neg hcomma, if_true]
    | @cons u y ts xs hnext hothers =>
      have hread := hfirst _ (ends_comma (lines depth (u :: ts) ++ newLine depth (closing :: rest)))
      have hlater := ih (List.cons_ne_nil _ _) (Nat.le_of_succ_le_succ hn)
      rw [lines_cons_cons, newLine_append, List.append_assoc, List.cons_append]
      simp only [items?, h.newLine, hread, skipBlank_of_not (show isBlank ',' = false from rfl), if_true, hlater,
        Option.map_some]

theorem Begins.enclosed?_eq (h : Begins item? closing) {cs : List Char} {items : List α} {rest : List Char}
    (hitems : items? item? closing cs.length cs = some (items, rest)) : enclosed? item? closing cs = some (items, rest) := by
  obtain ⟨item, hitem⟩ : ∃ item, item? cs = some item := by
    cases hread : item? cs with
    | some item => exact ⟨item, rfl⟩
    | none =>
      cases hn : cs.length with
      | zero =>
        rw [hn] at hitems
        cases hitems
      | succ n =>
        rw [hn, items?, hread] at hitems
        cases hitems
  obtain ⟨c, others, hcs, hc⟩ := h.first cs item hitem
  unfold enclosed?
  rw [hcs]
  exact (if_neg hc).trans hitems

/-- What stands between two brackets is read, item by item. -/
theorem enclosed?_block (h : Begins item? closing) (hblank : isBlank closing = false) (hcomma : closing ≠ ',')
    {opened closed : String} {opening : Char} (hopened : opened.toList = [opening]) (hclosed : closed.toList = [closing])
    (depth : Nat) {ts : List String} {xs : List α} (hshows : List.Forall₂ (Shows item?) ts xs) :
    ∃ cs, (block opened closed depth ts).toList = opening :: cs ∧
      ∀ rest, enclosed? item? closing (cs ++ rest) = some (xs, rest) := by
  by_cases hts : ts = []
  · subst hts
    cases hshows
    refine ⟨[closing], ?_, fun rest => ?_⟩
    · unfold block
      simp [hopened, hclosed]
    · simp [enclosed?, skipBlank_of_not hblank]
  · refine ⟨lines depth ts ++ newLine depth [closing], ?_, fun rest => ?_⟩
    · rw [toList_block _ _ _ hts, hopened, hclosed]
      rfl
    · rw [List.append_assoc, newLine_append]
      apply h.enclosed?_eq
      apply items?_lines h hblank hcomma depth hshows hts
      have hlength := length_le_lines depth ts
      rw [List.length_append]
      omega

end

/-! ## Values -/

theorem begins_value? (n : Nat) : Begins (value? n) ']' where
  blank cs := by
    cases n with
    | zero => rfl
    | succ n => simp only [value?, skipBlank_skipBlank]
  first cs value hvalue := by
    cases n with
    | zero => cases hvalue
    | succ n =>
      cases hcs : skipBlank cs with
      | nil =>
        rw [value?, hcs] at hvalue
        cases hvalue
      | cons c rest =>
        refine ⟨c, rest, rfl, ?_⟩
        rintro rfl
        rw [value?, hcs] at hvalue
        cases hvalue

theorem begins_field? {α : Type} {item? : List Char → Option (α × List Char)} : Begins (field? item?) '\x7d' where
  blank cs := by
    unfold field?
    rw [skipBlank_skipBlank]
  first cs field hfield := by
    unfold field? at hfield
    split at hfield
    · rename_i rest hcs
      exact ⟨'"', rest, hcs, by decide⟩
    · cases hfield

/-! ## Documents -/

mutual

/-- What a document stands for. -/
def value : Json → Value
  | int n => .number n
  | text s => .text s
  | list items => .list (values items)
  | object fields => .object (fieldValues fields)

def values : List Json → List Value
  | [] => []
  | item :: items => value item :: values items

def fieldValues : List (String × Json) → List (String × Value)
  | [] => []
  | (name, item) :: fields => (name, value item) :: fieldValues fields

end

theorem value?_of_number {c : Char} (hc : c = '-' ∨ c.isDigit) (n : Nat) (cs : List Char) :
    value? (n + 1) (c :: cs) = (number? (c :: cs)).map fun (value, rest) => (.number value, rest) := by
  have hblank : isBlank c = false := by
    rw [Bool.eq_false_iff]
    intro h
    simp only [isBlank, Bool.or_eq_true, decide_eq_true_eq] at h
    rcases h with ((rfl | rfl) | rfl) | rfl <;> exact absurd hc (by decide)
  simp only [value?, skipBlank_of_not hblank, if_pos hc]

theorem shows_int (k : Int) (n : Nat) : Shows (value? (n + 1)) (toString k) (.number k) := by
  intro rest hrest
  obtain ⟨c, cs, hcs, hc⟩ := exists_int_first k
  have hnumber := number?_toString k hrest
  rw [hcs, List.cons_append] at hnumber ⊢
  rw [value?_of_number hc, hnumber]
  rfl

theorem shows_text (s : String) (n : Nat) : Shows (value? (n + 1)) (quoted s) (.text s) := by
  intro rest _
  obtain ⟨cs, hcs, hread⟩ := string?_quoted s
  rw [hcs, List.cons_append, value?, skipBlank_of_not (by rfl)]
  simp [hread]

theorem shows_field {α : Type} {item? : List Char → Option (α × List Char)}
    (hblank : ∀ cs, item? (skipBlank cs) = item? cs) {text : String} {x : α} (h : Shows item? text x) (name : String) :
    Shows (field? item?) (quoted name ++ ": " ++ text) (name, x) := by
  intro rest hrest
  obtain ⟨cs, hcs, hread⟩ := string?_quoted name
  have htext : (quoted name ++ ": " ++ text).toList ++ rest = '"' :: (cs ++ ':' :: ' ' :: (text.toList ++ rest)) := by
    simp [hcs]
  have hspace : item? (' ' :: (text.toList ++ rest)) = some (x, rest) := by
    have hskip : skipBlank (' ' :: (text.toList ++ rest)) = skipBlank (text.toList ++ rest) := rfl
    rw [← hblank, hskip, hblank]
    exact h rest hrest
  rw [htext, field?, skipBlank_of_not (by rfl)]
  simp only [hread, skipBlank_of_not (show isBlank ':' = false from rfl), hspace, Option.map_some]

theorem exists_pred_of_text {text : String} {c : Char} {cs : List Char} (h : text.toList = c :: cs) {n : Nat}
    (hn : text.length ≤ n) : ∃ m, n = m + 1 := by
  have hlength : text.length = cs.length + 1 := by
    rw [← String.length_toList, h, List.length_cons]
  exact ⟨n - 1, by omega⟩

theorem exists_room {opened closed : String} {c : Char} (h : opened.toList = [c]) {depth : Nat} {items : List String}
    {n : Nat} (hn : (block opened closed depth items).length ≤ n) :
    ∃ m, n = m + 1 ∧ ∀ t ∈ items, t.length ≤ m := by
  by_cases hitems : items = []
  · subst hitems
    have htext : (block opened closed depth []).toList = c :: closed.toList := by simp [block, h]
    obtain ⟨m, rfl⟩ := exists_pred_of_text htext hn
    exact ⟨m, rfl, fun t ht => by cases ht⟩
  · have htext := toList_block opened closed depth hitems
    rw [h] at htext
    obtain ⟨m, rfl⟩ := exists_pred_of_text htext hn
    refine ⟨m, rfl, fun t ht => ?_⟩
    have hlines := length_le_of_mem_lines depth ht
    rw [← String.length_toList, htext] at hn
    simp only [List.cons_append, List.nil_append, List.length_cons, List.length_append] at hn
    omega

mutual

theorem shows_prettyAt (depth : Nat) :
    ∀ (v : Json) {n : Nat}, (prettyAt depth v).length ≤ n → Shows (value? n) (prettyAt depth v) v.value
  | int k, n, hn => by
    obtain ⟨c, cs, hcs, -⟩ := exists_int_first k
    obtain ⟨m, rfl⟩ := exists_pred_of_text hcs hn
    exact shows_int k m
  | text s, n, hn => by
    obtain ⟨m, rfl⟩ := exists_pred_of_text (toList_quoted s) hn
    exact shows_text s m
  | list items, n, hn => by
    rw [prettyAt] at hn
    obtain ⟨m, rfl, hroom⟩ := exists_room (show "[".toList = ['['] from rfl) hn
    obtain ⟨cs, hcs, hread⟩ := enclosed?_block (begins_value? m) rfl (by decide) (show "[".toList = ['['] from rfl)
      (show "]".toList = [']'] from rfl) depth (shows_prettyItems (depth + 1) items hroom)
    intro rest _
    rw [prettyAt, hcs, List.cons_append, value?, skipBlank_of_not (by rfl)]
    simp [hread, value]
  | object fields, n, hn => by
    rw [prettyAt] at hn
    obtain ⟨m, rfl, hroom⟩ := exists_room (show "\x7b".toList = ['\x7b'] from rfl) hn
    obtain ⟨cs, hcs, hread⟩ := enclosed?_block begins_field? rfl (by decide) (show "\x7b".toList = ['\x7b'] from rfl)
      (show "\x7d".toList = ['\x7d'] from rfl) depth (shows_prettyFields (depth + 1) fields hroom)
    intro rest _
    rw [prettyAt, hcs, List.cons_append, value?, skipBlank_of_not (by rfl)]
    simp [hread, value]

theorem shows_prettyItems (depth : Nat) :
    ∀ (items : List Json) {n : Nat}, (∀ t ∈ prettyItems depth items, t.length ≤ n) →
      List.Forall₂ (Shows (value? n)) (prettyItems depth items) (values items)
  | [], _, _ => .nil
  | item :: items, n, hn => by
    rw [prettyItems, List.forall_mem_cons] at hn
    exact .cons (shows_prettyAt depth item hn.1) (shows_prettyItems depth items hn.2)

theorem shows_prettyFields (depth : Nat) :
    ∀ (fields : List (String × Json)) {n : Nat}, (∀ t ∈ prettyFields depth fields, t.length ≤ n) →
      List.Forall₂ (Shows (field? (value? n))) (prettyFields depth fields) (fieldValues fields)
  | [], _, _ => .nil
  | (name, item) :: fields, n, hn => by
    rw [prettyFields, List.forall_mem_cons] at hn
    have hitem : (prettyAt depth item).length ≤ n := by
      have hfield := hn.1
      rw [String.length_append] at hfield
      omega
    exact .cons (shows_field (begins_value? n).blank (shows_prettyAt depth item hitem) name)
      (shows_prettyFields depth fields hn.2)

end

theorem read?_pretty (v : Json) : read? v.pretty = some v.value := by
  have hends : Ends [] := by
    intro c hc
    cases hc
  have hshows := shows_prettyAt 0 v (Nat.le_refl _) [] hends
  rw [List.append_nil] at hshows
  unfold read? pretty
  rw [hshows]
  rfl

end PeerMesh.Text.Json
