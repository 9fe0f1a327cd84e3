import Mathlib.Data.List.DropRight
import ShapeSchema.Proofs.Json.Limit
import ShapeSchema.Proofs.Json.Numeral
import ShapeSchema.Proofs.Json.StringLiteral

/-!
Documents are read back from their texts. Reading a text does not depend on the blanks between its
parts, every part of a value ends where the text says that it ends, and the number of steps that
the length of the text grants is enough. Two texts of one document differ in blanks only, none of
them in a string literal.
-/

namespace ShapeSchema.Json

/-! ## Blanks -/

def isBlank (c : Char) : Bool :=
  c == ' ' || c == '\t' || c == '\n' || c == '\r'

theorem isBlank_iff {c : Char} : isBlank c = true ↔ c ∈ [' ', '\t', '\n', '\r'] := by
  simp [isBlank, or_assoc]

def AreBlanks (blanks : List Char) : Prop :=
  ∀ c ∈ blanks, isBlank c = true

theorem skipBlanks_cons {c : Char} (hc : isBlank c = false) (cs : List Char) :
    skipBlanks (c :: cs) = c :: cs :=
  List.dropWhile_cons_of_neg (by simpa [isBlank] using hc)

theorem AreBlanks.skipBlanks_append {blanks : List Char} (hblanks : AreBlanks blanks)
    (cs : List Char) : skipBlanks (blanks ++ cs) = skipBlanks cs :=
  List.dropWhile_append_of_pos hblanks

theorem skipBlanks_skipBlanks (cs : List Char) : skipBlanks (skipBlanks cs) = skipBlanks cs :=
  List.dropWhile_idempotent _ cs

theorem areBlanks_lineBreak (style : Style) (level : Nat) : AreBlanks (style.lineBreak level) := by
  intro c hc
  unfold Style.lineBreak at hc
  cases hindent : style.indent with
  | none => simp [hindent] at hc
  | some width =>
    rw [hindent] at hc
    rcases List.mem_cons.mp hc with rfl | hc
    · rfl
    · rw [List.eq_of_mem_replicate hc]
      rfl

theorem exists_separator (style : Style) (level : Nat) :
    ∃ blanks, style.separator level = ',' :: blanks ∧ AreBlanks blanks := by
  unfold Style.separator
  cases style.indent with
  | none => exact ⟨[' '], rfl, by simp [AreBlanks, isBlank]⟩
  | some width => exact ⟨_, rfl, areBlanks_lineBreak style level⟩

theorem endsNumeral_cons {c : Char} (hc : c ∈ [' ', '\t', '\n', '\r', ',', ']', '}'])
    (cs : List Char) : EndsNumeral (c :: cs) := by
  have hall : ∀ c ∈ [' ', '\t', '\n', '\r', ',', ']', '}'],
      isDigit c = false ∧ c ≠ '.' ∧ c ≠ 'e' ∧ c ≠ 'E' := by
    simp [isDigit]
  rintro _ ⟨⟩
  exact hall c hc

theorem EndsNumeral.append_blanks {blanks cs : List Char} (hblanks : AreBlanks blanks)
    (hcs : EndsNumeral cs) : EndsNumeral (blanks ++ cs) := by
  cases blanks with
  | nil => exact hcs
  | cons c blanks =>
    have hc := isBlank_iff.mp (hblanks c List.mem_cons_self)
    exact endsNumeral_cons (List.mem_append_left [',', ']', '}'] hc) _

theorem not_blank_of_beginsNumber {c : Char} (hc : beginsNumber c = true) : isBlank c = false := by
  have hall : ∀ c ∈ [' ', '\t', '\n', '\r'], beginsNumber c = false := by
    simp [beginsNumber, isDigit]
  by_contra hblank
  have hother := hall c (isBlank_iff.mp (eq_true_of_ne_false hblank))
  exact absurd hc (ne_true_of_eq_false hother)

/-- The key of a member and what stands between it and its value, followed by `rest`. -/
def writeKey (style : Style) (key : String) (rest : List Char) : List Char :=
  writeString style key (':' :: ' ' :: rest)

theorem write_obj_cons (style : Style) (level : Nat) (key : String) (value : Json)
    (members : List (String × Json)) (rest : List Char) :
    write style level (obj ((key, value) :: members)) rest =
      '{' :: (style.lineBreak (level + 1) ++ writeKey style key (write style (level + 1) value
        (writeMembers style (level + 1) members (style.lineBreak level ++ '}' :: rest)))) := by
  rw [write, List.cons_append, writeKey]

theorem writeMembers_cons (style : Style) (level : Nat) (key : String) (value : Json)
    (members : List (String × Json)) (rest : List Char) :
    writeMembers style level ((key, value) :: members) rest =
      style.separator level ++
        writeKey style key (write style level value (writeMembers style level members rest)) := by
  rw [writeMembers, writeKey]

/-! ## Readers up to blanks -/

section Readers

attribute [local simp] readValue readItems readMembers

theorem readValue_congr {cs ds : List Char} (h : skipBlanks cs = skipBlanks ds) (fuel : Nat) :
    readValue fuel cs = readValue fuel ds := by
  cases fuel with
  | zero => rfl
  | succ fuel => rw [readValue, readValue, h]

theorem readValue_space (fuel : Nat) (cs : List Char) :
    readValue fuel (' ' :: cs) = readValue fuel cs := by
  have hspace : skipBlanks (' ' :: cs) = skipBlanks cs := rfl
  exact readValue_congr hspace fuel

theorem readItems_congr {cs ds : List Char} (h : skipBlanks cs = skipBlanks ds) (fuel : Nat) :
    readItems fuel cs = readItems fuel ds := by
  cases fuel with
  | zero => rfl
  | succ fuel => rw [readItems, readItems, readValue_congr h]

theorem readMembers_congr {cs ds : List Char} (h : skipBlanks cs = skipBlanks ds) (fuel : Nat) :
    readMembers fuel cs = readMembers fuel ds := by
  cases fuel with
  | zero => rfl
  | succ fuel => rw [readMembers, readMembers, h]

variable {fuel : Nat} {cs after next rest : List Char}

theorem readItems_last {item : Json} (hitem : readValue fuel cs = some (item, after))
    (hclose : skipBlanks after = ']' :: rest) :
    readItems (fuel + 1) cs = some ([item], rest) := by
  simp [hitem, hclose]

theorem readItems_more {item : Json} {items : List Json}
    (hitem : readValue fuel cs = some (item, after)) (hcomma : skipBlanks after = ',' :: next)
    (hitems : readItems fuel next = some (items, rest)) :
    readItems (fuel + 1) cs = some (item :: items, rest) := by
  simp [hitem, hcomma, hitems]

theorem readValue_items {items : List Json} (hfront : ∀ tail, skipBlanks cs ≠ ']' :: tail)
    (hitems : readItems fuel cs = some (items, rest)) :
    readValue (fuel + 1) ('[' :: cs) = some (arr items, rest) := by
  rw [readValue, skipBlanks_cons (by decide)]
  simp only [readItems_congr (skipBlanks_skipBlanks cs), hitems, Option.map_some]

variable {style : Style} {value : Json}

theorem readValue_writeString (hplain : style.escape = escapeChar) (text : String) :
    readValue (fuel + 1) (writeString style text rest) = some (str text, rest) := by
  have hread := readString_flatMap text rest
  simp [writeString, hplain, skipBlanks_cons, isBlank, hread]

theorem readMembers_last (hplain : style.escape = escapeChar) (key : String)
    (hvalue : readValue fuel cs = some (value, after)) (hclose : skipBlanks after = '}' :: rest) :
    readMembers (fuel + 1) (writeKey style key cs) = some ([(key, value)], rest) := by
  have hkey := readString_flatMap key (':' :: ' ' :: cs)
  have hspaced : readValue fuel (' ' :: cs) = some (value, after) :=
    (readValue_space fuel cs).trans hvalue
  simp [writeKey, writeString, hplain, skipBlanks_cons, isBlank, hkey, hspaced,
    hclose]

theorem readMembers_more (hplain : style.escape = escapeChar) (key : String)
    {members : List (String × Json)} (hvalue : readValue fuel cs = some (value, after))
    (hcomma : skipBlanks after = ',' :: next)
    (hmembers : readMembers fuel next = some (members, rest)) :
    readMembers (fuel + 1) (writeKey style key cs) = some ((key, value) :: members, rest) := by
  have hkey := readString_flatMap key (':' :: ' ' :: cs)
  have hspaced : readValue fuel (' ' :: cs) = some (value, after) :=
    (readValue_space fuel cs).trans hvalue
  simp [writeKey, writeString, hplain, skipBlanks_cons, isBlank, hkey, hspaced,
    hcomma, hmembers]

theorem readValue_members {members : List (String × Json)}
    (hfront : ∀ tail, skipBlanks cs ≠ '}' :: tail)
    (hmembers : readMembers fuel cs = some (members, rest)) :
    readValue (fuel + 1) ('{' :: cs) = some (obj (ofMembers members), rest) := by
  rw [readValue, skipBlanks_cons (by decide)]
  simp only [readMembers_congr (skipBlanks_skipBlanks cs), hmembers, Option.map_some]

theorem readValue_number {first : Char} (hfirst : beginsNumber first = true) (more : List Char) :
    readValue (fuel + 1) (first :: more) =
      (readNumber (first :: more)).map fun (number, tail) => (num number, tail) := by
  rw [readValue, skipBlanks_cons (not_blank_of_beginsNumber hfirst)]
  split
  all_goals first
    | rfl
    | next heq =>
      rw [(List.cons.inj heq).1] at hfirst
      exact absurd hfirst (by decide)

end Readers

/-! ## Lengths -/

theorem length_lt_writeString (style : Style) (text : String) (rest : List Char) :
    rest.length < (writeString style text rest).length := by
  simp only [writeString, List.length_append, List.length_cons]
  omega

theorem length_lt_writeKey (style : Style) (key : String) (rest : List Char) :
    rest.length < (writeKey style key rest).length := by
  have hkey := length_lt_writeString style key (':' :: ' ' :: rest)
  rw [List.length_cons, List.length_cons] at hkey
  rw [writeKey]
  omega

mutual
/-- No value is written as nothing. -/
theorem length_lt_write (style : Style) : ∀ (level : Nat) (value : Json) (rest : List Char),
    rest.length < (write style level value rest).length
  | _, null, rest | _, bool true, rest | _, bool false, rest | _, arr [], rest
  | _, obj [], rest => by
    simp only [write, List.length_cons]
    omega
  | _, num n, rest => by
    obtain ⟨first, more, htext, -⟩ := exists_cons_text n
    simp only [write, writeNumber, htext, List.length_append, List.length_cons]
    omega
  | _, str text, rest => length_lt_writeString style text rest
  | level, arr (item :: items), rest => by
    have hitem := length_lt_write style (level + 1) item
      (writeItems style (level + 1) items (style.lineBreak level ++ ']' :: rest))
    have hitems := length_le_writeItems style (level + 1) items
      (style.lineBreak level ++ ']' :: rest)
    simp only [write, List.length_append, List.length_cons] at hitem hitems ⊢
    omega
  | level, obj ((key, value) :: members), rest => by
    have hkey := length_lt_writeKey style key (write style (level + 1) value
      (writeMembers style (level + 1) members (style.lineBreak level ++ '}' :: rest)))
    have hvalue := length_lt_write style (level + 1) value
      (writeMembers style (level + 1) members (style.lineBreak level ++ '}' :: rest))
    have hmembers := length_le_writeMembers style (level + 1) members
      (style.lineBreak level ++ '}' :: rest)
    simp only [write_obj_cons, List.length_append, List.length_cons] at hkey hvalue hmembers ⊢
    omega

theorem length_le_writeItems (style : Style) : ∀ (level : Nat) (items : List Json)
    (rest : List Char), rest.length ≤ (writeItems style level items rest).length
  | _, [], _ => Nat.le_refl _
  | level, item :: items, rest => by
    have hitem := length_lt_write style level item (writeItems style level items rest)
    have hitems := length_le_writeItems style level items rest
    simp only [writeItems, List.length_append]
    omega

theorem length_le_writeMembers (style : Style) : ∀ (level : Nat) (members : List (String × Json))
    (rest : List Char), rest.length ≤ (writeMembers style level members rest).length
  | _, [], _ => Nat.le_refl _
  | level, (key, value) :: members, rest => by
    have hkey := length_lt_writeKey style key
      (write style level value (writeMembers style level members rest))
    have hvalue := length_lt_write style level value (writeMembers style level members rest)
    have hmembers := length_le_writeMembers style level members rest
    rw [writeMembers_cons, List.length_append]
    omega
end

/-! ## Round trip -/

/-- Whether a value is read back from its text whatever follows it, in a number of steps that the
length of the text grants. -/
def ReadsBack (style : Style) (value : Json) : Prop :=
  ∀ level fuel rest, EndsNumeral rest →
    2 * (write style level value rest).length ≤ fuel + 2 * rest.length →
      readValue fuel (write style level value rest) = some (value, rest)

/-- No value is written like the end of an array. -/
theorem exists_cons_write (style : Style) (level : Nat) (value : Json) (rest : List Char) :
    ∃ first more, write style level value rest = first :: more ∧ isBlank first = false ∧
      first ≠ ']' := by
  match value with
  | null | bool true | bool false | str _ | arr [] | arr (_ :: _) | obj [] | obj ((_, _) :: _) =>
    exact ⟨_, _, rfl, rfl, by decide⟩
  | num n =>
    obtain ⟨first, more, htext, hfirst⟩ := exists_cons_text n
    refine ⟨first, more ++ rest, by rw [write, writeNumber, htext, List.cons_append], ?_, ?_⟩
    · exact not_blank_of_beginsNumber hfirst
    · rintro rfl
      cases hfirst

theorem skipBlanks_write (style : Style) (level : Nat) (value : Json) (rest : List Char) :
    skipBlanks (write style level value rest) = write style level value rest := by
  obtain ⟨first, more, hwrite, hblank, -⟩ := exists_cons_write style level value rest
  rw [hwrite, skipBlanks_cons hblank]

/-- Whether a text ends a container: a bracket stands in it behind blanks. -/
structure Closes (bracket : Char) (rest close : List Char) : Prop where
  skip : skipBlanks close = bracket :: rest
  ends : EndsNumeral close
  longer : rest.length < close.length

theorem closes_lineBreak (style : Style) (level : Nat) {bracket : Char}
    (hbracket : bracket ∈ [']', '}']) (rest : List Char) :
    Closes bracket rest (style.lineBreak level ++ bracket :: rest) where
  skip := by
    rw [(areBlanks_lineBreak style level).skipBlanks_append, skipBlanks_cons]
    rcases List.mem_pair.mp hbracket with rfl | rfl <;> rfl
  ends := by
    refine .append_blanks (areBlanks_lineBreak style level) (endsNumeral_cons ?_ rest)
    exact List.mem_append_right [' ', '\t', '\n', '\r', ','] hbracket
  longer := by
    rw [List.length_append, List.length_cons]
    omega

theorem exists_skipBlanks_separator (style : Style) (level : Nat) (cs : List Char) :
    ∃ next, skipBlanks (style.separator level ++ cs) = ',' :: next ∧
      skipBlanks next = skipBlanks cs := by
  obtain ⟨blanks, hseparator, hblanks⟩ := exists_separator style level
  refine ⟨blanks ++ cs, ?_, hblanks.skipBlanks_append cs⟩
  rw [hseparator, List.cons_append, skipBlanks_cons (by decide)]

theorem endsNumeral_separator (style : Style) (level : Nat) (cs : List Char) :
    EndsNumeral (style.separator level ++ cs) := by
  obtain ⟨blanks, hseparator, -⟩ := exists_separator style level
  rw [hseparator]
  exact endsNumeral_cons (by simp) _

section Containers

variable {style : Style} {level fuel : Nat} {close rest : List Char}

theorem endsNumeral_writeItems (items : List Json) (hclose : EndsNumeral close) :
    EndsNumeral (writeItems style level items close) := by
  cases items with
  | nil => exact hclose
  | cons item items => exact endsNumeral_separator style level _

theorem endsNumeral_writeMembers (members : List (String × Json)) (hclose : EndsNumeral close) :
    EndsNumeral (writeMembers style level members close) := by
  cases members with
  | nil => exact hclose
  | cons member members => exact endsNumeral_separator style level _

/-- The items of an array are read one after another, each with a step less than the one before. -/
theorem readItems_write (hclose : Closes ']' rest close) {item : Json} {items : List Json}
    (hitem : ReadsBack style item) (hitems : ∀ item ∈ items, ReadsBack style item)
    (hfuel : 2 * (write style level item (writeItems style level items close)).length <
      fuel + 2 * rest.length) :
    readItems fuel (write style level item (writeItems style level items close)) =
      some (item :: items, rest) := by
  induction items generalizing item fuel with
  | nil =>
    have hlonger := hclose.longer
    have hlt := length_lt_write style level item close
    rw [writeItems] at hfuel ⊢
    obtain ⟨fuel, rfl⟩ : ∃ less, fuel = less + 1 := ⟨fuel - 1, by omega⟩
    exact readItems_last (hitem level fuel close hclose.ends (by omega)) hclose.skip
  | cons next items ih =>
    obtain ⟨hnext, hitems⟩ := List.forall_mem_cons.mp hitems
    have hlonger := hclose.longer
    have hlt := length_lt_write style level item (writeItems style level (next :: items) close)
    have hle := length_le_writeItems style level (next :: items) close
    have hnextLe : (write style level next (writeItems style level items close)).length ≤
        (writeItems style level (next :: items) close).length := by
      rw [writeItems, List.length_append]
      omega
    obtain ⟨fuel, rfl⟩ : ∃ less, fuel = less + 1 := ⟨fuel - 1, by omega⟩
    have hread := hitem level fuel (writeItems style level (next :: items) close)
      (endsNumeral_writeItems _ hclose.ends) (by omega)
    have hmore : readItems fuel (write style level next (writeItems style level items close)) =
        some (next :: items, rest) :=
      ih hnext hitems (by omega)
    obtain ⟨after, hcomma, hafter⟩ := exists_skipBlanks_separator style level
      (write style level next (writeItems style level items close))
    exact readItems_more hread hcomma ((readItems_congr hafter fuel).trans hmore)

/-- The members of an object are read one after another, each with a step less than the one
before. -/
theorem readMembers_write (hplain : style.escape = escapeChar) (hclose : Closes '}' rest close)
    {key : String} {value : Json} {members : List (String × Json)}
    (hvalue : ReadsBack style value) (hmembers : ∀ member ∈ members, ReadsBack style member.2)
    (hfuel : 2 * (writeKey style key (write style level value
      (writeMembers style level members close))).length < fuel + 2 * rest.length) :
    readMembers fuel (writeKey style key (write style level value
      (writeMembers style level members close))) = some ((key, value) :: members, rest) := by
  have hlonger := hclose.longer
  induction members generalizing key value fuel with
  | nil =>
    have hkey := length_lt_writeKey style key (write style level value close)
    have hlt := length_lt_write style level value close
    rw [writeMembers] at hfuel ⊢
    obtain ⟨fuel, rfl⟩ : ∃ less, fuel = less + 1 := ⟨fuel - 1, by omega⟩
    exact readMembers_last hplain key (hvalue level fuel close hclose.ends (by omega)) hclose.skip
  | cons member members ih =>
    obtain ⟨next, following⟩ := member
    obtain ⟨hfollowing, hmembers⟩ := List.forall_mem_cons.mp hmembers
    have hkey := length_lt_writeKey style key
      (write style level value (writeMembers style level ((next, following) :: members) close))
    have hlt := length_lt_write style level value
      (writeMembers style level ((next, following) :: members) close)
    have hle := length_le_writeMembers style level ((next, following) :: members) close
    have hnextLe : (writeKey style next (write style level following
        (writeMembers style level members close))).length ≤
          (writeMembers style level ((next, following) :: members) close).length := by
      rw [writeMembers_cons, List.length_append]
      omega
    obtain ⟨fuel, rfl⟩ : ∃ less, fuel = less + 1 := ⟨fuel - 1, by omega⟩
    have hread := hvalue level fuel (writeMembers style level ((next, following) :: members) close)
      (endsNumeral_writeMembers _ hclose.ends) (by omega)
    have hmore : readMembers fuel (writeKey style next (write style level following
        (writeMembers style level members close))) = some ((next, following) :: members, rest) :=
      ih hfollowing hmembers (by omega)
    obtain ⟨after, hcomma, hafter⟩ := exists_skipBlanks_separator style level
      (writeKey style next (write style level following (writeMembers style level members close)))
    rw [← writeMembers_cons] at hcomma
    exact readMembers_more hplain key hread hcomma ((readMembers_congr hafter fuel).trans hmore)

end Containers

section Values

variable {style : Style}

theorem readsBack_scalar (hplain : style.escape = escapeChar) {value : Json}
    (hscalar : value.isScalar) : ReadsBack style value := by
  intro level fuel rest hrest hfuel
  have hlt := length_lt_write style level value rest
  obtain ⟨fuel, rfl⟩ : ∃ less, fuel = less + 1 := ⟨fuel - 1, by omega⟩
  match value with
  | null | bool true | bool false => rfl
  | num n =>
    obtain ⟨first, more, htext, hfirst⟩ := exists_cons_text n
    have hread := readNumber_writeNumber n hrest
    rw [writeNumber, htext, List.cons_append] at hread
    rw [write, writeNumber, htext, List.cons_append, readValue_number hfirst, hread,
      Option.map_some]
  | str text => exact readValue_writeString hplain text
  | arr _ | obj _ => cases hscalar

theorem ofMembers_of_nodup {members : List (String × Json)}
    (hnodup : (members.map Prod.fst).Nodup) : ofMembers members = members :=
  @Document.update_of_nodup [] members hnodup

theorem readsBack (hplain : style.escape = escapeChar) {value : Json}
    (hvalue : value.HasDistinctKeys) : ReadsBack style value := by
  induction hvalue with
  | scalar hscalar => exact readsBack_scalar hplain hscalar
  | @arr items _ ih =>
    intro level fuel rest hrest hfuel
    have hlt := length_lt_write style level (arr items) rest
    obtain ⟨fuel, rfl⟩ : ∃ less, fuel = less + 1 := ⟨fuel - 1, by omega⟩
    cases items with
    | nil => rfl
    | cons item items =>
      obtain ⟨hitem, hitems⟩ := List.forall_mem_cons.mp ih
      have hblanks := areBlanks_lineBreak style (level + 1)
      simp only [write, List.cons_append, List.length_cons, List.length_append] at hfuel ⊢
      refine readValue_items ?_ ((readItems_congr (hblanks.skipBlanks_append _) fuel).trans
        (readItems_write (closes_lineBreak style level (by simp) rest) hitem hitems (by omega)))
      intro tail heq
      rw [hblanks.skipBlanks_append, skipBlanks_write] at heq
      obtain ⟨first, more, hwrite, -, hne⟩ := exists_cons_write style (level + 1) item
        (writeItems style (level + 1) items (style.lineBreak level ++ ']' :: rest))
      exact hne (List.cons.inj (hwrite.symm.trans heq)).1
  | @obj members hnodup _ ih =>
    intro level fuel rest hrest hfuel
    have hlt := length_lt_write style level (obj members) rest
    obtain ⟨fuel, rfl⟩ : ∃ less, fuel = less + 1 := ⟨fuel - 1, by omega⟩
    cases members with
    | nil => rfl
    | cons member members =>
      obtain ⟨key, value⟩ := member
      obtain ⟨hfirst, hmembers⟩ := List.forall_mem_cons.mp ih
      have hblanks := areBlanks_lineBreak style (level + 1)
      rw [write_obj_cons] at hfuel ⊢
      rw [List.length_cons, List.length_append] at hfuel
      rw [← ofMembers_of_nodup hnodup]
      refine readValue_members ?_ ((readMembers_congr (hblanks.skipBlanks_append _) fuel).trans
        (readMembers_write hplain (closes_lineBreak style level (by simp) rest) hfirst hmembers
          (by omega)))
      intro tail heq
      rw [hblanks.skipBlanks_append, writeKey, writeString, List.cons_append,
        skipBlanks_cons rfl] at heq
      exact absurd (List.cons.inj heq).1 (by decide)

theorem read?_text (hplain : style.escape = escapeChar) {doc : Json} (hdoc : doc.HasDistinctKeys) :
    read? (text style doc) = some doc := by
  have hread := readsBack hplain hdoc 0 (2 * (write style 0 doc []).length + 1) [] nofun (by omega)
  simp only [read?, text, String.toList_ofList, hread]
  rfl

/-- Of two members with one key, the reader keeps the later value. -/
example : read? (text .compact (obj [("a", null), ("a", bool true)])) =
    some (obj [("a", bool true)]) := by
  decide +kernel

end Values

end ShapeSchema.Json
