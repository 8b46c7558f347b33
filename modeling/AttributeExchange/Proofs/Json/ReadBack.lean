import AttributeExchange.Proofs.Json.Sound

/-!
# Documents that are written and read again

The compact text of a document that was read can be read, and gives the document back but for its
doubles: the digits of a double are the fewest that tell it apart, and reading them rounds once
more.
-/

namespace AttributeExchange.Json

/-! ## What comes back -/

def rereadDouble (bits : UInt64) : UInt64 :=
  match read (utf8 (Json.double bits).compact) with
  | .ok (.double again) => again
  | _ => bits

mutual

/-- A document with every double replaced by what its text is read as. -/
def reread : Json → Json
  | .double bits => .double (rereadDouble bits)
  | .array elements => .array (rereadElements elements)
  | .object members => .object (rereadMembers members)
  | .null => .null
  | .bool value => .bool value
  | .integer n => .integer n
  | .string text => .string text

def rereadElements : List Json → List Json
  | [] => []
  | element :: elements => reread element :: rereadElements elements

def rereadMembers : List (String × Json) → List (String × Json)
  | [] => []
  | (name, value) :: members => (name, reread value) :: rereadMembers members

end

theorem rereadElements_eq_map (elements : List Json) :
    rereadElements elements = elements.map reread := by
  induction elements with
  | nil => rw [rereadElements, List.map_nil]
  | cons element elements ih => rw [rereadElements, ih, List.map_cons]

theorem rereadMembers_eq_map (members : List (String × Json)) :
    rereadMembers members = members.map fun member => (member.1, member.2.reread) := by
  induction members with
  | nil => rw [rereadMembers, List.map_nil]
  | cons member members ih =>
      obtain ⟨name, value⟩ := member
      rw [rereadMembers, ih, List.map_cons]

inductive DoubleFree : Json → Prop where
  | null : DoubleFree .null
  | bool (value : Bool) : DoubleFree (.bool value)
  | integer (n : Int) : DoubleFree (.integer n)
  | string (text : String) : DoubleFree (.string text)
  | array {elements : List Json} (h : ∀ element ∈ elements, DoubleFree element) :
      DoubleFree (.array elements)
  | object {members : List (String × Json)} (h : ∀ member ∈ members, DoubleFree member.2) :
      DoubleFree (.object members)

def minusZero : UInt64 :=
  0x8000000000000000

/-- That the numbers of a document are integers. Minus zero is one as well, though it is read as a
double. -/
inductive Whole : Json → Prop where
  | null : Whole .null
  | bool (value : Bool) : Whole (.bool value)
  | integer (n : Int) : Whole (.integer n)
  | minusZero : Whole (.double minusZero)
  | string (text : String) : Whole (.string text)
  | array {elements : List Json} (h : ∀ element ∈ elements, Whole element) : Whole (.array elements)
  | object {members : List (String × Json)} (h : ∀ member ∈ members, Whole member.2) :
      Whole (.object members)

theorem DoubleFree.whole {document : Json} (h : DoubleFree document) : document.Whole := by
  induction h with
  | null => exact .null
  | bool value => exact .bool value
  | integer n => exact .integer n
  | string text => exact .string text
  | array _ ih => exact .array ih
  | object _ ih => exact .object ih

theorem rereadDouble_minusZero : rereadDouble minusZero = minusZero := by
  decide +kernel

theorem Whole.reread_eq_self {document : Json} (h : document.Whole) :
    document.reread = document := by
  induction h with
  | null | bool | integer | string => rw [reread]
  | minusZero => rw [reread, rereadDouble_minusZero]
  | @array elements _ ih =>
      rw [reread, rereadElements_eq_map, List.map_congr_left ih, List.map_id']
  | @object members _ ih =>
      have hmembers : ∀ member ∈ members, (member.1, member.2.reread) = member :=
        fun member hmember => by rw [ih member hmember]
      rw [reread, rereadMembers_eq_map, List.map_congr_left hmembers, List.map_id']

theorem DoubleFree.reread_eq_self {document : Json} (h : DoubleFree document) :
    document.reread = document :=
  h.whole.reread_eq_self

/-! ## Objects in order -/

theorem insertMember_of_lt {name : String} {value : Json} {members : List (String × Json)}
    (h : ∀ member ∈ members, member.1 < name) :
    insertMember name value members = members ++ [(name, value)] := by
  induction members with
  | nil => rfl
  | cons first members ih =>
      obtain ⟨hfirst, hmembers⟩ := List.forall_mem_cons.mp h
      have hne : name ≠ first.1 := by
        rintro rfl
        exact String.lt_irrefl _ hfirst
      rw [insertMember, if_neg hne, if_neg (String.lt_asymm hfirst), ih hmembers]
      rfl

theorem ofMembers_of_ordered {members : List (String × Json)} (h : Ordered members) :
    ofMembers members = .object members := by
  have hfold : ∀ front : List (String × Json), Ordered (front ++ members) →
      members.foldl (fun sorted member => insertMember member.1 member.2 sorted) front =
        front ++ members := by
    induction members with
    | nil => exact fun front _ => (List.append_nil front).symm
    | cons member members ih =>
        intro front hordered
        have hlast : ∀ earlier ∈ front, earlier.1 < member.1 := fun earlier hearlier =>
          (List.pairwise_append.mp hordered).2.2 earlier hearlier member List.mem_cons_self
        rw [List.append_cons] at hordered ⊢
        rw [List.foldl_cons, insertMember_of_lt hlast]
        exact ih (List.pairwise_cons.mp h).2 (front ++ [member]) hordered
  rw [ofMembers, hfold [] h, List.nil_append]

theorem ordered_reread {members : List (String × Json)} (h : Ordered members) :
    Ordered (members.map fun member => (member.1, member.2.reread)) :=
  List.pairwise_map.mpr h

/-! ## How a document starts -/

theorem Sound.exists_cons {levels : Nat} {document : Json} (h : Sound levels document) :
    ∃ b rest, encoded document.compactChars = b :: rest ∧ isBlank b = false ∧ b ≠ ascii ']' := by
  cases h with
  | null => exact ⟨_, _, rfl, by decide⟩
  | bool value => cases value <;> exact ⟨_, _, rfl, by decide⟩
  | @integer _ n hlow hhigh =>
      obtain ⟨b, rest, hdigits, hb⟩ := (Numeral.writes_toDigits false n.natAbs).exists_cons
      rw [compactChars, integerText]
      split_ifs
      · rw [encoded_cons_of_lt (by decide)]
        exact ⟨_, _, rfl, by decide⟩
      · rw [encoded_toDigits, hdigits]
        exact ⟨b, rest, rfl, (isDigit_start hb).1, (isDigit_start hb).2.1⟩
  | @double _ bits hfinite =>
      obtain ⟨text, numeral, hwrites, htext, -⟩ := Double.exists_numeral_text hfinite
      obtain ⟨b, rest, rfl, hb⟩ := hwrites.exists_cons
      rw [compactChars, htext]
      cases numeral.negative with
      | true => exact ⟨ascii '-', _, rfl, by decide⟩
      | false => exact ⟨b, rest, rfl, (isDigit_start hb).1, (isDigit_start hb).2.1⟩
  | string text =>
      rw [compactChars, encoded_stringText]
      exact ⟨_, _, rfl, by decide⟩
  | array | object =>
      rw [compactChars, encoded_cons_of_lt (by decide)]
      exact ⟨_, _, rfl, by decide⟩

/-! ## Scanning what was written -/

/-- That the text of a document starts like a value, and that a scanner takes it off the front as
the document that it is read as. -/
def Taken (element : Scanner Json) (document : Json) : Prop :=
  (∃ b rest, encoded document.compactChars = b :: rest ∧ isBlank b = false ∧ b ≠ ascii ']') ∧
    ∀ s, Ends s → element (encoded document.compactChars ++ s) = .ok (document.reread, s)

theorem elementsText_cons (first next : Json) (more : List Json) :
    elementsText (first :: next :: more) =
      compactChars first ++ ',' :: elementsText (next :: more) := by
  rw [elementsText]
  exact fun h => List.cons_ne_nil _ _ h

theorem membersText_cons (first next : String × Json) (more : List (String × Json)) :
    membersText (first :: next :: more) =
      stringText first.1 ++ ':' :: (compactChars first.2 ++ ',' :: membersText (next :: more)) := by
  rw [membersText]
  exact fun h => List.cons_ne_nil _ _ h

section Parts

variable {element : Scanner Json}

theorem exists_cons_elementsText {first : Json} (hfirst : Taken element first) (more : List Json) :
    ∃ b rest, encoded (elementsText (first :: more)) = b :: rest ∧ isBlank b = false ∧
      b ≠ ascii ']' := by
  obtain ⟨⟨b, rest, htext, hb⟩, -⟩ := hfirst
  cases more with
  | nil => exact ⟨b, rest, by rw [elementsText, htext], hb⟩
  | cons next more =>
      rw [elementsText_cons, encoded_append, htext]
      exact ⟨b, _, rfl, hb⟩

theorem scanElements_append {first : Json} {more : List Json}
    (htaken : ∀ document ∈ first :: more, Taken element document) {turns : Nat}
    (hturns : more.length < turns) (s : Bytes) :
    scanElements element turns (encoded (elementsText (first :: more)) ++ ascii ']' :: s) =
      .ok ((first :: more).map reread, s) := by
  obtain ⟨turns, rfl⟩ := Nat.exists_eq_add_one_of_ne_zero (Nat.ne_zero_of_lt hturns)
  have hfirst := (htaken first List.mem_cons_self).2
  induction more generalizing first turns with
  | nil =>
      have hends : Ends (ascii ']' :: s) := Blank.nil.ends_append (.inr (.inl rfl)) s
      rw [scanElements, elementsText, hfirst _ hends]
      rfl
  | cons next more ih =>
      have hmore := fun document hdocument => htaken document (List.mem_cons_of_mem first hdocument)
      have hnext := hmore next List.mem_cons_self
      obtain ⟨b, rest, htext, hb, hclose⟩ := exists_cons_elementsText hnext more
      obtain ⟨turns, rfl⟩ := Nat.exists_eq_add_one_of_ne_zero
        (Nat.ne_zero_of_lt (Nat.lt_of_succ_lt_succ hturns))
      have hrest := ih hmore turns (Nat.lt_of_succ_lt_succ hturns) hnext.2
      have hends : Ends (ascii ',' :: (encoded (elementsText (next :: more)) ++ ascii ']' :: s)) :=
        Blank.nil.ends_append (.inl rfl) _
      have hcomma : isBlank (ascii ',') = false := by decide
      rw [scanElements, elementsText_cons, encoded_append, encoded_cons_of_lt (by decide),
        List.append_assoc, List.cons_append, hfirst _ hends]
      simp only [bind, Except.bind, skipBlanks_cons hcomma]
      rw [if_neg (by decide), if_pos trivial]
      rw [htext, List.cons_append] at hrest ⊢
      simp only [skipBlanks_cons hb]
      rw [if_neg hclose, hrest]
      rfl

theorem scanList_append {elements : List Json}
    (htaken : ∀ document ∈ elements, Taken element document) (s : Bytes) :
    scanList element (encoded (elementsText elements) ++ ascii ']' :: s) =
      .ok (elements.map reread, s) := by
  cases elements with
  | nil => rfl
  | cons first more =>
      obtain ⟨b, rest, htext, hb, hclose⟩ :=
        exists_cons_elementsText (htaken first List.mem_cons_self) more
      have hturns :
          more.length < (encoded (elementsText (first :: more)) ++ ascii ']' :: s).length := by
        rw [encoded_elementsText, List.append_assoc]
        have hlt := length_lt_of_further (writtenElement first).bytes
          ((more.map writtenElement).map Padded.bytes) (ascii ']') s
        rwa [List.length_map, List.length_map] at hlt
      have hscan := scanElements_append htaken hturns s
      rw [htext, List.cons_append] at hscan ⊢
      rw [scanList, skipBlanks_cons hb]
      simp only [if_neg hclose]
      exact hscan

def rereadMember (member : String × Json) : String × Json :=
  (member.1, member.2.reread)

theorem encoded_memberText (name : String) (chars : List Char) (s : Bytes) :
    encoded (stringText name ++ ':' :: chars) ++ s =
      ascii '\x22' ::
        (quotedContent name ++ ascii '\x22' :: (ascii ':' :: (encoded chars ++ s))) := by
  rw [encoded_append, encoded_stringText, encoded_cons_of_lt (by decide)]
  simp only [List.cons_append, List.append_assoc, List.nil_append]

theorem exists_cons_membersText (first : String × Json) (more : List (String × Json)) :
    ∃ rest, encoded (membersText (first :: more)) = ascii '\x22' :: rest := by
  cases more with
  | nil =>
      rw [membersText, ← List.append_nil (encoded _), encoded_memberText]
      exact ⟨_, rfl⟩
  | cons next more =>
      rw [membersText_cons, ← List.append_nil (encoded _), encoded_memberText]
      exact ⟨_, rfl⟩

theorem scanMembers_append {first : String × Json} {more : List (String × Json)}
    (htaken : ∀ member ∈ first :: more, Taken element member.2) {turns : Nat}
    (hturns : more.length < turns) (s : Bytes) :
    scanMembers element turns (encoded (membersText (first :: more)) ++ ascii '\x7d' :: s) =
      .ok ((first :: more).map rereadMember, s) := by
  have hquote : ¬ ascii '\x22' ≠ ascii '\x22' := not_not.mpr rfl
  have hcolon : ∀ rest, scanColon (ascii ':' :: rest) = .ok rest := Blank.nil.scanColon
  obtain ⟨turns, rfl⟩ := Nat.exists_eq_add_one_of_ne_zero (Nat.ne_zero_of_lt hturns)
  have hfirst := (htaken first List.mem_cons_self).2
  induction more generalizing first turns with
  | nil =>
      have hends : Ends (ascii '\x7d' :: s) := Blank.nil.ends_append (.inr (.inr rfl)) s
      have hbrace : isBlank (ascii '\x7d') = false := by decide
      rw [membersText, encoded_memberText]
      simp only [scanMembers, if_neg hquote, scan_quotedContent, hcolon, bind, Except.bind,
        hfirst _ hends, skipBlanks_cons hbrace]
      rfl
  | cons next more ih =>
      have hmore := fun member hmember => htaken member (List.mem_cons_of_mem first hmember)
      have hnext := hmore next List.mem_cons_self
      obtain ⟨rest, htext⟩ := exists_cons_membersText next more
      obtain ⟨turns, rfl⟩ := Nat.exists_eq_add_one_of_ne_zero
        (Nat.ne_zero_of_lt (Nat.lt_of_succ_lt_succ hturns))
      have hrest := ih hmore turns (Nat.lt_of_succ_lt_succ hturns) hnext.2
      have hends :
          Ends (ascii ',' :: (encoded (membersText (next :: more)) ++ ascii '\x7d' :: s)) :=
        Blank.nil.ends_append (.inl rfl) _
      have hcomma : isBlank (ascii ',') = false := by decide
      have hopen : isBlank (ascii '\x22') = false := by decide
      rw [membersText_cons, encoded_memberText, encoded_append, encoded_cons_of_lt (by decide),
        List.append_assoc, List.cons_append, scanMembers]
      simp only [if_neg hquote, scan_quotedContent, hcolon, bind, Except.bind, hfirst _ hends,
        skipBlanks_cons hcomma]
      rw [if_neg (by decide), if_pos trivial]
      rw [htext, List.cons_append] at hrest ⊢
      simp only [skipBlanks_cons hopen]
      rw [if_neg (by decide), hrest]
      rfl

theorem scanObject_append {members : List (String × Json)}
    (htaken : ∀ member ∈ members, Taken element member.2) (s : Bytes) :
    scanObject element (encoded (membersText members) ++ ascii '\x7d' :: s) =
      .ok (members.map rereadMember, s) := by
  cases members with
  | nil => rfl
  | cons first more =>
      obtain ⟨rest, htext⟩ := exists_cons_membersText first more
      have hturns :
          more.length < (encoded (membersText (first :: more)) ++ ascii '\x7d' :: s).length := by
        rw [encoded_membersText, List.append_assoc]
        have hlt := length_lt_of_further (writtenMember first).bytes
          ((more.map writtenMember).map WrittenMember.bytes) (ascii '\x7d') s
        rwa [List.length_map, List.length_map] at hlt
      have hscan := scanMembers_append htaken hturns s
      have hopen : isBlank (ascii '\x22') = false := by decide
      rw [htext, List.cons_append] at hscan ⊢
      rw [scanObject, skipBlanks_cons hopen]
      dsimp only
      rw [if_neg (by decide)]
      exact hscan

end Parts

/-! ## Documents -/

theorem exists_scanNested_eq (levels : Nat) :
    ∃ element : Option (Scanner Json), scanNested levels = scanDocument element := by
  cases levels with
  | zero => exact ⟨none, rfl⟩
  | succ levels => exact ⟨some (scanNested levels), rfl⟩

theorem scanDocument_number (element : Option (Scanner Json)) {text : Bytes} {numeral : Numeral}
    (h : Numeral.Writes text numeral) {s : Bytes} (hends : Ends s) :
    scanDocument element (sign numeral.negative ++ (text ++ s)) =
      numeral.value.map fun document => (document, s) := by
  have hscan := scanNumber_append h hends
  cases hsign : numeral.negative with
  | true =>
      rw [hsign] at hscan
      have hblank : isBlank (ascii '-') = false := by decide
      change scanDocument element (ascii '-' :: (text ++ s)) = _
      rw [scanDocument, skipBlanks_cons hblank]
      exact hscan
  | false =>
      rw [hsign] at hscan
      obtain ⟨b, rest, rfl, hb⟩ := h.exists_cons
      have hblank : isBlank b = false := (isDigit_start hb).1
      change scanDocument element (b :: (rest ++ s)) = _
      rw [scanDocument, skipBlanks_cons hblank]
      dsimp only
      rw [if_neg (ne_of_isDigit hb (by decide)),
        if_neg (ne_of_isDigit hb (by decide)), if_neg (ne_of_isDigit hb (by decide)),
        if_neg (ne_of_isDigit hb (by decide)), if_pos hb]
      exact hscan

theorem sign_integerText (n : Int) :
    encoded (integerText n) =
      sign (decide (n < 0)) ++ (Nat.toDigits 10 n.natAbs).map ascii := by
  rw [integerText]
  split_ifs with hnegative
  · rw [encoded_cons_of_lt (by decide), encoded_toDigits, decide_eq_true hnegative]
    rfl
  · rw [encoded_toDigits, decide_eq_false hnegative]
    rfl

theorem value_decimal_natAbs {n : Int} (hlow : -(Int64.size / 2 : Nat) ≤ n)
    (hhigh : n < UInt64.size) :
    (Numeral.decimal (decide (n < 0)) n.natAbs).value = .ok (.integer n) := by
  by_cases hnegative : n < 0
  · rw [decide_eq_true hnegative, Numeral.value_decimal_of_negative (by omega) (by omega)]
    congr 2
    omega
  · rw [decide_eq_false hnegative, Numeral.value_decimal_of_lt (by omega)]
    congr 2
    omega

theorem scanDocument_integer (element : Option (Scanner Json)) {n : Int}
    (hlow : -(Int64.size / 2 : Nat) ≤ n) (hhigh : n < UInt64.size) {s : Bytes} (hends : Ends s) :
    scanDocument element (encoded (integerText n) ++ s) = .ok (.integer n, s) := by
  have hscan := scanDocument_number element
    (Numeral.writes_toDigits (decide (n < 0)) n.natAbs) hends
  rw [Numeral.negative_decimal, value_decimal_natAbs hlow hhigh] at hscan
  rw [sign_integerText, List.append_assoc]
  exact hscan

/-- A double is read as a double, and at any place as the same one. -/
theorem exists_scanDocument_double {bits : UInt64} (h : Double.FiniteBits bits) :
    ∃ again, ∀ (element : Option (Scanner Json)) (s : Bytes), Ends s →
      scanDocument element (encoded (Double.text bits) ++ s) = .ok (.double again, s) := by
  obtain ⟨text, numeral, hwrites, htext, again, hvalue⟩ := Double.exists_numeral_text h
  refine ⟨again, fun element s hends => ?_⟩
  have hscan := scanDocument_number element hwrites hends
  rw [hvalue] at hscan
  rw [htext, List.append_assoc]
  exact hscan

theorem read_compact {document again : Json}
    (h : scanNested nestingLimit (encoded document.compactChars ++ []) = .ok (again, [])) :
    read (utf8 document.compact) = .ok again := by
  rw [List.append_nil] at h
  rw [read, readNested, compact, utf8_ofList, h]
  rfl

theorem scanDocument_double (element : Option (Scanner Json)) {bits : UInt64}
    (h : Double.FiniteBits bits) {s : Bytes} (hends : Ends s) :
    scanDocument element (encoded (Double.text bits) ++ s) =
      .ok (.double (rereadDouble bits), s) := by
  obtain ⟨again, hscan⟩ := exists_scanDocument_double h
  have hread : read (utf8 (Json.double bits).compact) = .ok (.double again) := by
    apply read_compact
    rw [compactChars]
    exact hscan _ [] ends_nil
  have hagain : rereadDouble bits = again := by
    rw [rereadDouble, hread]
  rw [hagain]
  exact hscan element s hends

/-- The compact text of a sound document is taken off the front as the document but for its
doubles. -/
theorem Sound.scanNested_append {levels : Nat} {document : Json} (h : Sound levels document)
    {s : Bytes} (hends : Ends s) :
    scanNested levels (encoded document.compactChars ++ s) = .ok (document.reread, s) := by
  induction h generalizing s with
  | @null levels =>
      obtain ⟨element, helement⟩ := exists_scanNested_eq levels
      rw [helement, reread]
      exact congrArg (Except.map _) (scanLetters_append ['u', 'l', 'l'] s)
  | @bool levels value =>
      obtain ⟨element, helement⟩ := exists_scanNested_eq levels
      rw [helement, reread]
      cases value with
      | true => exact congrArg (Except.map _) (scanLetters_append ['r', 'u', 'e'] s)
      | false => exact congrArg (Except.map _) (scanLetters_append ['a', 'l', 's', 'e'] s)
  | @integer levels n hlow hhigh =>
      obtain ⟨element, helement⟩ := exists_scanNested_eq levels
      rw [helement, reread, compactChars]
      exact scanDocument_integer element hlow hhigh hends
  | @double levels bits hfinite =>
      obtain ⟨element, helement⟩ := exists_scanNested_eq levels
      rw [helement, reread, compactChars]
      exact scanDocument_double element hfinite hends
  | @string levels text =>
      obtain ⟨element, helement⟩ := exists_scanNested_eq levels
      have hquote : isBlank (ascii '\x22') = false := by decide
      have hscan := scan_quotedContent text s
      rw [helement, reread, compactChars, encoded_stringText, List.cons_append, List.append_assoc,
        scanDocument, skipBlanks_cons hquote]
      exact congrArg (Except.map _) hscan
  | @array levels elements helements ih =>
      have htaken : ∀ element ∈ elements, Taken (scanNested levels) element :=
        fun element helement => ⟨(helements element helement).exists_cons,
          fun s hs => ih element helement hs⟩
      have hopen : isBlank (ascii '[') = false := by decide
      have hscan := scanList_append htaken s
      rw [reread, rereadElements_eq_map, compactChars, encoded_cons_of_lt (by decide),
        encoded_append, List.cons_append, List.append_assoc, scanNested, scanDocument,
        skipBlanks_cons hopen]
      exact congrArg (Except.map _) hscan
  | @object levels members hordered hmembers ih =>
      have htaken : ∀ member ∈ members, Taken (scanNested levels) member.2 :=
        fun member hmember => ⟨(hmembers member hmember).exists_cons,
          fun s hs => ih member hmember hs⟩
      have hopen : isBlank (ascii '\x7b') = false := by decide
      have hscan := scanObject_append htaken s
      rw [reread, rereadMembers_eq_map, compactChars, encoded_cons_of_lt (by decide),
        encoded_append, List.cons_append, List.append_assoc, scanNested, scanDocument,
        skipBlanks_cons hopen, ← ofMembers_of_ordered (ordered_reread hordered)]
      exact congrArg (Except.map _) hscan

/-- The compact text of a document that was read can be read, and gives the document back but for
its doubles. -/
theorem read_compact_of_read {s : Bytes} {document : Json} (h : read s = .ok document) :
    read (utf8 document.compact) = .ok document.reread :=
  read_compact ((Sound.of_read h).scanNested_append ends_nil)

end AttributeExchange.Json
