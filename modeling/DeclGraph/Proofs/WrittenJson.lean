import Mathlib
import DeclGraph.Json.Reader
import DeclGraph.Json.Writer

/-! What is written is read back. The writer appends to a text; here the text of a value is a list of
characters, and the reader takes exactly these off the front of a longer list. The values that it gives
are the well-formed ones, and it gives each of them for the text that the writer makes of it. -/
namespace DeclGraph.Json

def escaped (cs : List Char) : List Char :=
  cs.flatMap fun c => (escapeChar c).toList

def quoted (text : String) : List Char :=
  '"' :: (escaped text.toList ++ ['"'])

mutual

def chars : Json → List Char
  | .null => ['n', 'u', 'l', 'l']
  | .bool true => ['t', 'r', 'u', 'e']
  | .bool false => ['f', 'a', 'l', 's', 'e']
  | .int n => (toString n).toList
  | .decimal text => text.toList
  | .str text => quoted text
  | .arr [] => ['[', ']']
  | .arr (item :: rest) => '[' :: (item.chars ++ itemChars rest)
  | .obj [] => ['\x7b', '\x7d']
  | .obj ((key, value) :: rest) =>
    '\x7b' :: (quoted key ++ ':' :: (value.chars ++ fieldChars rest))

def itemChars : List Json → List Char
  | [] => [']']
  | item :: rest => ',' :: (item.chars ++ itemChars rest)

def fieldChars : List (String × Json) → List Char
  | [] => ['\x7d']
  | (key, value) :: rest => ',' :: (quoted key ++ ':' :: (value.chars ++ fieldChars rest))

end

theorem toList_quote (out text : String) : (quote out text).toList = out.toList ++ quoted text := by
  have body : ∀ (cs : List Char) (out : String),
      (cs.foldl (fun out c => out ++ escapeChar c) out).toList = out.toList ++ escaped cs := by
    intro cs
    induction cs with
    | nil => intro out; simp [escaped]
    | cons c rest ih =>
        intro out
        rw [List.foldl_cons, ih, String.toList_append, List.append_assoc]
        rfl
  rw [quote, String.toList_push, body, String.toList_push]
  simp [quoted]

mutual

theorem toList_write (out : String) :
    ∀ value : Json, (write out value).toList = out.toList ++ value.chars
  | .null => by simp [write, chars]
  | .bool true => by simp [write, chars]
  | .bool false => by simp [write, chars]
  | .int n => by simp [write, chars]
  | .decimal text => by simp [write, chars]
  | .str text => by rw [write, chars, toList_quote]
  | .arr [] => by simp [write, chars]
  | .arr (item :: rest) => by
      rw [write, chars, toList_writeItems, toList_write, String.toList_push]
      simp
  | .obj [] => by simp [write, chars]
  | .obj ((key, value) :: rest) => by
      rw [write, chars, toList_writeFields, toList_write, String.toList_push, toList_quote,
        String.toList_push]
      simp

theorem toList_writeItems (out : String) :
    ∀ items : List Json, (writeItems out items).toList = out.toList ++ itemChars items
  | [] => by rw [writeItems, itemChars, String.toList_push]
  | item :: rest => by
      rw [writeItems, itemChars, toList_writeItems, toList_write, String.toList_push]
      simp

theorem toList_writeFields (out : String) :
    ∀ fields : List (String × Json), (writeFields out fields).toList = out.toList ++ fieldChars fields
  | [] => by rw [writeFields, fieldChars, String.toList_push]
  | (key, value) :: rest => by
      rw [writeFields, fieldChars, toList_writeFields, toList_write, String.toList_push, toList_quote,
        String.toList_push]
      simp

end

theorem toList_render (value : Json) : value.render.toList = value.chars := by
  rw [render, toList_write]
  rfl

theorem hexValue?_hexDigit : ∀ n < 16, hexValue? (hexDigit n) = some n := by
  decide

theorem escapedUnits?_control {c : Char} (control : c.toNat < 0x20) (rest : List Char) :
    escapedUnits? ('0' :: '0' :: hexDigit (c.toNat / 16) :: hexDigit (c.toNat % 16) :: rest) =
      some (c, rest) := by
  have units : hexUnit? ('0' :: '0' :: hexDigit (c.toNat / 16) :: hexDigit (c.toNat % 16) :: rest) =
      some (c.toNat, rest) := by
    have zero : hexValue? '0' = some 0 := by decide
    have whole : ((0 * 16 + 0) * 16 + c.toNat / 16) * 16 + c.toNat % 16 = c.toNat := by omega
    simp only [hexUnit?, zero, hexValue?_hexDigit _ (show c.toNat / 16 < 16 by omega),
      hexValue?_hexDigit _ (show c.toNat % 16 < 16 by omega), Option.bind_eq_bind, Option.bind_some,
      whole]
  have low : ¬ 0xD800 ≤ c.toNat := by omega
  have low' : ¬ 0xDC00 ≤ c.toNat := by omega
  simp [escapedUnits?, units, low, low', Char.ofNat_toNat]

section Strings
variable (fuel : Nat) (done rest : List Char)

theorem readString_mark {c mark : Char} (known : simpleEscape? mark = some c) :
    readString (fuel + 1) done ('\\' :: mark :: rest) = readString fuel (c :: done) rest := by
  -- Four digits would have to follow this one mark.
  have single : mark ≠ 'u' := by
    rintro rfl
    cases known
  simp [readString, known]

-- One step of the reader takes one character, however it is escaped.
theorem readString_escapeChar (c : Char) :
    readString (fuel + 1) done ((escapeChar c).toList ++ rest) = readString fuel (c :: done) rest := by
  unfold escapeChar
  split_ifs with quote backslash back feed newline carriage tab control
  · cases beq_iff_eq.1 quote
    exact readString_mark fuel done rest rfl
  · cases beq_iff_eq.1 backslash
    exact readString_mark fuel done rest rfl
  · cases beq_iff_eq.1 back
    exact readString_mark fuel done rest rfl
  · cases beq_iff_eq.1 feed
    exact readString_mark fuel done rest rfl
  · cases beq_iff_eq.1 newline
    exact readString_mark fuel done rest rfl
  · cases beq_iff_eq.1 carriage
    exact readString_mark fuel done rest rfl
  · cases beq_iff_eq.1 tab
    exact readString_mark fuel done rest rfl
  · simp [readString, escapedUnits?_control control]
  · simp_all [readString]

end Strings

theorem escapeChar_length_pos (c : Char) : 0 < (escapeChar c).toList.length := by
  unfold escapeChar
  split_ifs <;> simp

theorem readString_escaped (text rest : List Char) (done : List Char) (fuel : Nat)
    (enough : (escaped text).length < fuel) :
    readString fuel done (escaped text ++ '"' :: rest) =
      some (String.ofList (done.reverse ++ text), rest) := by
  induction text generalizing done fuel with
  | nil =>
      cases fuel with
      | zero => omega
      | succ fuel => simp [escaped, readString]
  | cons c text ih =>
      have first := escapeChar_length_pos c
      have parts : escaped (c :: text) = (escapeChar c).toList ++ escaped text := rfl
      rw [parts, List.length_append] at enough
      cases fuel with
      | zero => omega
      | succ fuel =>
          rw [parts, List.append_assoc, readString_escapeChar, ih (c :: done) fuel (by omega)]
          simp

theorem digitsValue_toDigits (n : Nat) : digitsValue (Nat.toDigits 10 n) = n := by
  have value : digitsValue (Nat.toDigits 10 n) = Nat.ofDigitChars 10 (Nat.toDigits 10 n) 0 := by
    rw [Nat.ofDigitChars_eq_foldl, digitsValue]
    simp only [Nat.mul_comm]
    rfl
  rw [value, Nat.ofDigitChars_ten_toDigits]

theorem toDigits_isDigit (n : Nat) : (Nat.toDigits 10 n).all Char.isDigit = true := by
  rw [List.all_eq_true]
  intro c member
  exact Nat.isDigit_of_mem_toDigits (by decide) (le_refl 10) member

theorem toList_toString_int (n : Int) :
    (toString n).toList =
      if 0 ≤ n then Nat.toDigits 10 n.toNat else '-' :: Nat.toDigits 10 (-n).toNat := by
  rw [Int.toString_eq_repr, Int.repr_eq_if]
  split
  · exact Nat.toList_repr
  · rw [String.toList_append, Nat.toList_repr]
    rfl

theorem toDigits_head?_ne_zero {n : Nat} (positive : 0 < n) :
    (Nat.toDigits 10 n).head? ≠ some '0' := by
  induction n using Nat.strongRecOn with
  | ind n ih =>
      by_cases small : n < 10
      · rw [Nat.toDigits_of_lt_base small]
        interval_cases n <;> decide
      · have shorter := ih (n / 10) (by omega) (by omega)
        rwa [Nat.toDigits_of_base_le (by decide) (by omega),
          List.head?_append_of_ne_nil _ Nat.toDigits_ne_nil]

theorem isWhole_toDigits (n : Nat) : isWhole (Nat.toDigits 10 n) = true := by
  rcases Nat.eq_zero_or_pos n with rfl | positive
  · decide
  · simp [isWhole, Nat.toDigits_ne_nil, toDigits_head?_ne_zero positive]

theorem isUnsigned_digits {cs : List Char} (digits : cs.all Char.isDigit = true) :
    isUnsigned cs = isWhole cs := by
  rw [List.all_eq_true] at digits
  rw [isUnsigned, List.takeWhile_eq_self_iff.2 digits, List.dropWhile_eq_nil_iff.2 digits]
  exact Bool.and_true _

theorem number?_digits {cs : List Char} (whole : isWhole cs = true)
    (digits : cs.all Char.isDigit = true) : number? cs = some (.int (digitsValue cs)) := by
  have unsigned := (isUnsigned_digits digits).trans whole
  unfold number?
  split
  · simp at digits
  · simp [unsigned, -List.all_eq_true, digits]

theorem number?_minus {cs : List Char} (whole : isWhole cs = true)
    (digits : cs.all Char.isDigit = true) (negative : digitsValue cs ≠ 0) :
    number? ('-' :: cs) = some (.int (-digitsValue cs)) := by
  have unsigned := (isUnsigned_digits digits).trans whole
  simp [number?, unsigned, negative, -List.all_eq_true, digits]

theorem number?_toString (n : Int) : number? (toString n).toList = some (.int n) := by
  rw [toList_toString_int]
  split
  next natural =>
    rw [number?_digits (isWhole_toDigits _) (toDigits_isDigit _), digitsValue_toDigits,
      Int.toNat_of_nonneg natural]
  next negative =>
    have positive : digitsValue (Nat.toDigits 10 (-n).toNat) ≠ 0 := by
      rw [digitsValue_toDigits]
      omega
    rw [number?_minus (isWhole_toDigits _) (toDigits_isDigit _) positive, digitsValue_toDigits,
      Int.toNat_of_nonneg (by omega), Int.neg_neg]

-- The digits of a number stand where the grammar has them.
example : number? ['0', '1'] = none ∧ number? ['1', '-', '2'] = none ∧ number? ['e'] = none :=
  ⟨rfl, rfl, rfl⟩

theorem isNumberChar_toString (n : Int) : ∀ c ∈ (toString n).toList, isNumberChar c = true := by
  have digit : ∀ {m : Nat} {c : Char}, c ∈ Nat.toDigits 10 m → isNumberChar c = true := by
    intro m c member
    simp [isNumberChar, Nat.isDigit_of_mem_toDigits (by decide) (le_refl 10) member]
  intro c member
  rw [toList_toString_int] at member
  split at member
  · exact digit member
  · rcases List.mem_cons.1 member with rfl | member
    · rfl
    · exact digit member

def Stops (rest : List Char) : Prop :=
  rest.takeWhile isNumberChar = []

theorem Stops.dropWhile {rest : List Char} (stops : Stops rest) :
    rest.dropWhile isNumberChar = rest := by
  have parts := List.takeWhile_append_dropWhile (p := isNumberChar) (l := rest)
  rwa [stops, List.nil_append] at parts

theorem isSpace_eq_false_of_number {c : Char} (number : isNumberChar c = true) : isSpace c = false := by
  by_contra blank
  simp only [isSpace, Bool.not_eq_false, Bool.or_eq_true, beq_iff_eq] at blank
  rcases blank with ((rfl | rfl) | rfl) | rfl <;> exact absurd number (by decide)

theorem readValue_number {cs rest : List Char} {number : Json} (read : number? cs = some number)
    (all : ∀ c ∈ cs, isNumberChar c = true) (stops : Stops rest) (fuel : Nat) :
    readValue (fuel + 1) (cs ++ rest) = some (number, rest) := by
  cases cs with
  | nil => cases read
  | cons c cs =>
      have first := all c List.mem_cons_self
      rw [readValue, List.cons_append,
        List.dropWhile_cons_of_neg (by simp [isSpace_eq_false_of_number first])]
      -- No other form starts with a character of a number.
      split
      case h_1 start => cases start
      case h_8 =>
        rw [← List.cons_append, List.takeWhile_append_of_pos all, List.dropWhile_append_of_pos all,
          stops, stops.dropWhile, List.append_nil, read]
        rfl
      all_goals
        next start =>
          rw [(List.cons.inj start).1] at first
          exact absurd first (by decide)

/-- The values that the reader gives: a number that is no integer is kept as it was written. -/
inductive WellFormed : Json → Prop
  | null : WellFormed .null
  | bool (value : Bool) : WellFormed (.bool value)
  | int (n : Int) : WellFormed (.int n)
  | decimal {text : String} (read : number? text.toList = some (.decimal text))
      (all : ∀ c ∈ text.toList, isNumberChar c = true) : WellFormed (.decimal text)
  | str (text : String) : WellFormed (.str text)
  | arr {items : List Json} (all : ∀ item ∈ items, WellFormed item) : WellFormed (.arr items)
  | obj {fields : List (String × Json)} (all : ∀ field ∈ fields, WellFormed field.2) :
      WellFormed (.obj fields)

attribute [simp] WellFormed.null WellFormed.bool WellFormed.int WellFormed.str

@[simp] theorem wellFormed_obj_iff {fields : List (String × Json)} :
    (Json.obj fields).WellFormed ↔ ∀ field ∈ fields, field.2.WellFormed := by
  refine ⟨fun wellFormed => ?_, .obj⟩
  cases wellFormed with
  | obj all => exact all

@[simp] theorem wellFormed_ofWord (n : UInt32) : (Json.ofWord n).WellFormed :=
  .int _

@[simp] theorem wellFormed_ofNat (n : Nat) : (Json.ofNat n).WellFormed :=
  .int _

def ReadsOff (value : Json) : Prop :=
  ∀ (fuel : Nat) (rest : List Char), 2 * value.chars.length ≤ fuel → Stops rest →
    readValue fuel (value.chars ++ rest) = some (value, rest)

def Opens (cs : List Char) : Prop :=
  ∃ c ∈ cs.head?, isSpace c = false ∧ c ≠ ']'

theorem opens_number {cs : List Char} {number : Json} (read : number? cs = some number)
    (all : ∀ c ∈ cs, isNumberChar c = true) : Opens cs := by
  cases cs with
  | nil => cases read
  | cons c cs =>
      have first := all c List.mem_cons_self
      refine ⟨c, rfl, isSpace_eq_false_of_number first, ?_⟩
      rintro rfl
      exact absurd first (by decide)

theorem WellFormed.opens {value : Json} (wellFormed : value.WellFormed) : Opens value.chars := by
  cases wellFormed with
  | null => simp [Opens, chars, isSpace]
  | bool value => cases value <;> simp [Opens, chars, isSpace]
  | int n =>
      rw [chars]
      exact opens_number (number?_toString n) (isNumberChar_toString n)
  | decimal read all =>
      rw [chars]
      exact opens_number read all
  | str text => simp [Opens, chars, quoted, isSpace]
  | @arr items all => cases items <;> simp [Opens, chars, isSpace]
  | @obj fields all => cases fields <;> simp [Opens, chars, isSpace]

theorem stops_itemChars (items : List Json) (rest : List Char) : Stops (itemChars items ++ rest) := by
  cases items <;> simp [itemChars, Stops, isNumberChar]

-- Reading an item and going on to the next one each cost a call, and both find characters to take.
theorem readItems_chars {first : Json} {more : List Json} (firstOff : first.ReadsOff)
    (moreOff : ∀ item ∈ more, item.ReadsOff) (fuel : Nat) (done : List Json) (rest : List Char)
    (enough : 2 * (first.chars.length + (itemChars more).length) + 1 ≤ fuel) :
    readItems fuel done (first.chars ++ (itemChars more ++ rest)) =
      some (.arr (done.reverse ++ first :: more), rest) := by
  induction more generalizing first done fuel with
  | nil =>
      cases fuel with
      | zero => omega
      | succ fuel =>
          rw [readItems, firstOff fuel _ (by omega) (stops_itemChars [] rest)]
          simp [itemChars, isSpace]
  | cons next more ih =>
      simp only [itemChars, List.length_cons, List.length_append] at enough
      cases fuel with
      | zero => omega
      | succ fuel =>
          rw [readItems, firstOff fuel _ (by omega) (stops_itemChars _ rest)]
          have step := ih (moreOff next List.mem_cons_self)
            (fun item member => moreOff item (List.mem_cons_of_mem _ member)) fuel (first :: done)
            (by omega)
          simp [itemChars, isSpace, step]

theorem readString_quoted (text : String) (rest : List Char) {fuel : Nat}
    (enough : (quoted text).length ≤ fuel) :
    readString fuel [] (escaped text.toList ++ '"' :: rest) = some (text, rest) := by
  rw [quoted, List.length_cons, List.length_append] at enough
  rw [readString_escaped _ _ _ _ (by omega)]
  simp

theorem readFields_field {key : String} {value : Json} (off : value.ReadsOff)
    (done : List (String × Json)) {mark : Char} (rest : List Char)
    (parts : mark = ',' ∨ mark = '\x7d') {fuel : Nat}
    (enough : 2 * ((quoted key).length + value.chars.length) ≤ fuel) :
    readFields (fuel + 1) done (quoted key ++ ':' :: (value.chars ++ mark :: rest)) =
      if mark = ',' then readFields fuel ((key, value) :: done) rest
      else some (.obj ((key, value) :: done).reverse, rest) := by
  have stops : Stops (mark :: rest) := by
    rcases parts with rfl | rfl <;> rfl
  have text := readString_quoted key (':' :: (value.chars ++ mark :: rest)) (show _ ≤ fuel by omega)
  have value := off fuel (mark :: rest) (by omega) stops
  rw [readFields]
  rcases parts with rfl | rfl <;> simp [quoted, isSpace, text, value]

theorem readFields_chars (key : String) {first : Json} {more : List (String × Json)}
    (firstOff : first.ReadsOff) (moreOff : ∀ field ∈ more, field.2.ReadsOff) (fuel : Nat)
    (done : List (String × Json)) (rest : List Char)
    (enough : 2 * ((quoted key).length + (first.chars.length + (fieldChars more).length)) + 1 ≤ fuel) :
    readFields fuel done (quoted key ++ ':' :: (first.chars ++ (fieldChars more ++ rest))) =
      some (.obj (done.reverse ++ (key, first) :: more), rest) := by
  induction more generalizing key first done fuel with
  | nil =>
      cases fuel with
      | zero => omega
      | succ fuel =>
          rw [fieldChars, List.singleton_append,
            readFields_field firstOff done rest (Or.inr rfl) (by omega)]
          simp
  | cons next more ih =>
      obtain ⟨nextKey, next⟩ := next
      have nextOff : next.ReadsOff := moreOff (nextKey, next) List.mem_cons_self
      simp only [fieldChars, List.length_cons, List.length_append] at enough
      cases fuel with
      | zero => omega
      | succ fuel =>
          rw [fieldChars, List.cons_append,
            readFields_field firstOff done _ (Or.inl rfl) (by omega), if_pos rfl, List.append_assoc,
            List.cons_append, List.append_assoc,
            ih nextKey nextOff (fun field member => moreOff field (List.mem_cons_of_mem _ member)) fuel
              ((key, first) :: done) (by omega)]
          simp

theorem Opens.readsOff {value : Json} (opens : Opens value.chars)
    (step : ∀ (fuel : Nat) (rest : List Char), 2 * value.chars.length ≤ fuel + 1 → Stops rest →
      readValue (fuel + 1) (value.chars ++ rest) = some (value, rest)) : value.ReadsOff := by
  intro fuel rest enough stops
  cases fuel with
  | zero =>
      obtain ⟨c, first, -⟩ := opens
      have empty : value.chars = [] := List.length_eq_zero_iff.1 (by omega)
      rw [empty] at first
      cases first
  | succ fuel => exact step fuel rest enough stops

theorem readValue_items {first : Json} {more : List Json} (opens : Opens first.chars)
    (firstOff : first.ReadsOff) (moreOff : ∀ item ∈ more, item.ReadsOff) {fuel : Nat}
    (enough : 2 * (Json.arr (first :: more)).chars.length ≤ fuel + 1) (rest : List Char) :
    readValue (fuel + 1) ((Json.arr (first :: more)).chars ++ rest) =
      some (.arr (first :: more), rest) := by
  rw [chars, List.length_cons, List.length_append] at enough
  have items := readItems_chars firstOff moreOff fuel [] rest (by omega)
  obtain ⟨c, start, blank, bracket⟩ := opens
  obtain ⟨cs, start⟩ := List.head?_eq_some_iff.1 start
  rw [start] at items
  rw [chars, readValue, start]
  simp only [List.cons_append, List.append_assoc]
  rw [List.dropWhile_cons_of_neg (by decide)]
  simp only [List.dropWhile_cons, blank]
  split
  next closes => exact absurd (List.cons.inj closes).1 bracket
  next => exact items

theorem WellFormed.readsOff {value : Json} (wellFormed : value.WellFormed) : value.ReadsOff := by
  refine wellFormed.opens.readsOff fun fuel rest enough stops => ?_
  induction wellFormed generalizing fuel rest with
  | null =>
      rw [readValue]
      simp [chars, isSpace]
  | bool value =>
      rw [readValue]
      cases value <;> simp [chars, isSpace]
  | int n =>
      rw [chars]
      exact readValue_number (number?_toString n) (isNumberChar_toString n) stops fuel
  | decimal read all =>
      rw [chars]
      exact readValue_number read all stops fuel
  | str text =>
      rw [chars] at enough ⊢
      rw [readValue]
      simp [quoted, isSpace, readString_quoted text rest (show _ ≤ fuel by omega)]
  | @arr items all ih =>
      have itemsOff : ∀ item ∈ items, item.ReadsOff := fun item member =>
        (all item member).opens.readsOff (ih item member)
      cases items with
      | nil =>
          rw [readValue]
          simp [chars, isSpace]
      | cons first more =>
          exact readValue_items (all first List.mem_cons_self).opens
            (itemsOff first List.mem_cons_self)
            (fun item member => itemsOff item (List.mem_cons_of_mem _ member)) enough rest
  | @obj fields all ih =>
      have fieldsOff : ∀ field ∈ fields, field.2.ReadsOff := fun field member =>
        (all field member).opens.readsOff (ih field member)
      cases fields with
      | nil =>
          rw [readValue]
          simp [chars, isSpace]
      | cons first more =>
          rw [chars, List.length_cons, List.length_append, List.length_cons, List.length_append] at enough
          have fields := readFields_chars first.1 (fieldsOff first List.mem_cons_self)
            (fun field member => fieldsOff field (List.mem_cons_of_mem _ member)) fuel [] rest
            (by omega)
          rw [chars, readValue]
          simpa [isSpace, quoted] using fields

theorem parse?_render {value : Json} (wellFormed : value.WellFormed) :
    parse? value.render = some value := by
  have whole := wellFormed.readsOff (2 * value.chars.length + 2) [] (by omega) rfl
  rw [List.append_nil] at whole
  simp [parse?, toList_render, whole]

/-! The other way round: nothing else is ever read. -/

theorem wellFormed_of_number {cs : List Char} {number : Json} (read : number? cs = some number)
    (all : ∀ c ∈ cs, isNumberChar c = true) : number.WellFormed := by
  have kept : ∀ text : String, text.toList = cs → number = .decimal text → number.WellFormed := by
    rintro text rfl rfl
    exact .decimal read all
  unfold number? at read
  split at read
  · split_ifs at read
    · cases read
      exact .int _
    · exact kept _ String.toList_ofList (Option.some.inj read).symm
  · split_ifs at read
    · cases read
      exact .int _
    · exact kept _ String.toList_ofList (Option.some.inj read).symm

structure Sound (fuel : Nat) : Prop where
  values {cs value rest} : readValue fuel cs = some (value, rest) → value.WellFormed
  items {done cs value rest} : readItems fuel done cs = some (value, rest) →
    (Json.arr done).WellFormed → value.WellFormed
  fields {done cs value rest} : readFields fuel done cs = some (value, rest) →
    (Json.obj done).WellFormed → value.WellFormed

variable {fuel : Nat} {cs rest : List Char} {value : Json}

theorem Sound.readValue (sound : Sound fuel)
    (read : Json.readValue (fuel + 1) cs = some (value, rest)) : value.WellFormed := by
  have noItems : (Json.arr []).WellFormed := .arr (by simp)
  have noFields : (Json.obj []).WellFormed := .obj (by simp)
  rw [Json.readValue] at read
  split at read
  · cases read
  · cases read
    exact .null
  · cases read
    exact .bool true
  · cases read
    exact .bool false
  · obtain ⟨text, -, same⟩ := Option.map_eq_some_iff.1 read
    cases same
    exact .str text.1
  · split at read
    · cases read
      exact noItems
    · exact sound.items read noItems
  · split at read
    · cases read
      exact noFields
    · exact sound.fields read noFields
  · obtain ⟨number, found, same⟩ := Option.map_eq_some_iff.1 read
    cases same
    exact wellFormed_of_number found fun c member => List.mem_takeWhile_imp member

theorem Sound.readItems {done : List Json} (sound : Sound fuel)
    (read : Json.readItems (fuel + 1) done cs = some (value, rest))
    (before : (Json.arr done).WellFormed) : value.WellFormed := by
  rw [Json.readItems] at read
  obtain ⟨⟨item, more⟩, first, read⟩ := Option.bind_eq_some_iff.1 read
  cases before with
  | arr all =>
      have longer : ∀ other ∈ item :: done, other.WellFormed := by
        simpa using ⟨sound.values first, all⟩
      simp only at read
      split at read
      · exact sound.items read (.arr longer)
      · cases read
        exact .arr fun other member => longer other (List.mem_reverse.1 member)
      · cases read

theorem Sound.readFields {done : List (String × Json)} (sound : Sound fuel)
    (read : Json.readFields (fuel + 1) done cs = some (value, rest))
    (before : (Json.obj done).WellFormed) : value.WellFormed := by
  rw [Json.readFields] at read
  split at read
  · obtain ⟨⟨key, more⟩, -, read⟩ := Option.bind_eq_some_iff.1 read
    simp only at read
    split at read
    · obtain ⟨⟨own, more⟩, first, read⟩ := Option.bind_eq_some_iff.1 read
      have longer : ∀ field ∈ (key, own) :: done, field.2.WellFormed :=
        List.forall_mem_cons.2 ⟨sound.values first, wellFormed_obj_iff.1 before⟩
      simp only at read
      split at read
      · exact sound.fields read (.obj longer)
      · cases read
        exact .obj fun field member => longer field (List.mem_reverse.1 member)
      · cases read
    · cases read
  · cases read

theorem readers_sound (fuel : Nat) : Sound fuel := by
  induction fuel with
  | zero =>
      constructor <;> simp [Json.readValue, Json.readItems, Json.readFields]
  | succ fuel ih => exact ⟨ih.readValue, ih.readItems, ih.readFields⟩

/-- The reader gives the well-formed values, and no others. -/
theorem parse?_eq_some_iff : (∃ text, parse? text = some value) ↔ value.WellFormed := by
  refine ⟨?_, fun wellFormed => ⟨_, parse?_render wellFormed⟩⟩
  rintro ⟨text, read⟩
  unfold parse? at read
  simp only at read
  split at read
  next found =>
    split at read
    · cases read
      exact (readers_sound _).values found
    · cases read
  next => cases read

end DeclGraph.Json
