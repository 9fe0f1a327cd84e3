import ShapeSchema.Proofs.Json.RoundTrip

/-!
What the indentation does to the text of a document: it changes the blanks outside the string
literals, and nothing else.
-/

namespace ShapeSchema.Json

/-- A text without the blanks outside its string literals, read from inside a literal or from
outside of one. In a literal the character after a backslash does not end it. -/
def withoutBlanks : (inside : Bool) → List Char → List Char
  | _, [] => []
  | inside, '"' :: cs => '"' :: withoutBlanks (!inside) cs
  | true, '\\' :: c :: cs => '\\' :: c :: withoutBlanks true cs
  | true, c :: cs => c :: withoutBlanks true cs
  | false, c :: cs => if isBlank c then withoutBlanks false cs else c :: withoutBlanks false cs

/-! ## String literals -/

theorem withoutBlanks_inside {c : Char} (hquote : c ≠ '"') (hbackslash : c ≠ '\\')
    (cs : List Char) : withoutBlanks true (c :: cs) = c :: withoutBlanks true cs := by
  rw [withoutBlanks]
  · exact hquote
  · intro _ _ heq
    exact absurd heq hbackslash

theorem withoutBlanks_digitChar {n : Nat} (hn : n < 16) (cs : List Char) :
    withoutBlanks true (Nat.digitChar n :: cs) = Nat.digitChar n :: withoutBlanks true cs := by
  have hplain : ∀ n < 16, Nat.digitChar n ≠ '"' ∧ Nat.digitChar n ≠ '\\' := by decide
  exact withoutBlanks_inside (hplain n hn).1 (hplain n hn).2 cs

theorem IsEscape.withoutBlanks_append {c : Char} {written : List Char} (h : IsEscape c written)
    (cs : List Char) : withoutBlanks true (written ++ cs) = written ++ withoutBlanks true cs := by
  cases h with
  | plain _ hquote hbackslash => exact withoutBlanks_inside hquote hbackslash cs
  | mark => rfl
  | code =>
    have hmod (m : Nat) : m % 16 < 16 := Nat.mod_lt m (by decide)
    simp only [unitEscape, hexDigits_four, List.cons_append, List.nil_append]
    rw [withoutBlanks]
    simp only [withoutBlanks_digitChar (hmod _)]

theorem withoutBlanks_flatMap (text rest : List Char) :
    withoutBlanks true (text.flatMap escapeChar ++ '"' :: rest) =
      text.flatMap escapeChar ++ '"' :: withoutBlanks false rest := by
  induction text with
  | nil => rfl
  | cons c text ih =>
    rw [List.flatMap_cons, List.append_assoc, (isEscape_escapeChar c).withoutBlanks_append, ih,
      List.append_assoc]

theorem withoutBlanks_writeString {style : Style} (hplain : style.escape = escapeChar)
    (text : String) (rest : List Char) :
    withoutBlanks false (writeString style text rest) =
      writeString style text (withoutBlanks false rest) := by
  rw [writeString, writeString, hplain, List.cons_append, withoutBlanks, Bool.not_false,
    withoutBlanks_flatMap, List.cons_append]

/-! ## Between the literals -/

theorem withoutBlanks_cons {c : Char} (hblank : isBlank c = false) (hquote : c ≠ '"')
    (cs : List Char) : withoutBlanks false (c :: cs) = c :: withoutBlanks false cs := by
  rw [withoutBlanks, if_neg (ne_true_of_eq_false hblank)]
  exact hquote

theorem AreBlanks.withoutBlanks_append {blanks : List Char} (hblanks : AreBlanks blanks)
    (cs : List Char) : withoutBlanks false (blanks ++ cs) = withoutBlanks false cs := by
  induction blanks with
  | nil => rfl
  | cons c blanks ih =>
    obtain ⟨hc, hblanks⟩ := List.forall_mem_cons.mp hblanks
    rw [List.cons_append, withoutBlanks, if_pos hc, ih hblanks]
    rintro rfl
    cases hc

theorem withoutBlanks_writeNumber (n : Number) (rest : List Char) :
    withoutBlanks false (writeNumber n rest) = writeNumber n (withoutBlanks false rest) := by
  have hother : ∀ c ∈ ['"', ' ', '\t', '\n', '\r'], isNumberChar c = false := by
    simp [isNumberChar, isDigit]
  rw [writeNumber, writeNumber]
  generalize hwritten : (n.text "Infinity" "NaN").toList = written
  have hchars : ∀ c ∈ written, isNumberChar c = true := hwritten ▸ isNumberChar_of_mem_text n
  clear hwritten
  induction written with
  | nil => rfl
  | cons c written ih =>
    obtain ⟨hc, hchars⟩ := List.forall_mem_cons.mp hchars
    have hblank : isBlank c = false := by
      by_contra hblank
      have hmem := isBlank_iff.mp (eq_true_of_ne_false hblank)
      exact absurd hc (ne_true_of_eq_false (hother c (List.mem_cons_of_mem '"' hmem)))
    have hquote : c ≠ '"' := by
      rintro rfl
      exact absurd hc (ne_true_of_eq_false (hother '"' List.mem_cons_self))
    rw [List.cons_append, withoutBlanks_cons hblank hquote, ih hchars, List.cons_append]

theorem withoutBlanks_separator (style : Style) (level : Nat) (cs : List Char) :
    withoutBlanks false (style.separator level ++ cs) = ',' :: withoutBlanks false cs := by
  obtain ⟨blanks, hseparator, hblanks⟩ := exists_separator style level
  rw [hseparator, List.cons_append, withoutBlanks_cons (by decide) (by decide),
    hblanks.withoutBlanks_append]

theorem withoutBlanks_lineBreak (style : Style) (level : Nat) (cs : List Char) :
    withoutBlanks false (style.lineBreak level ++ cs) = withoutBlanks false cs :=
  (areBlanks_lineBreak style level).withoutBlanks_append cs

theorem withoutBlanks_close (style other : Style) (level depth : Nat) {bracket : Char}
    (hbracket : bracket ∈ [']', '}']) {rest tail : List Char}
    (h : withoutBlanks false rest = withoutBlanks false tail) :
    withoutBlanks false (style.lineBreak level ++ bracket :: rest) =
      withoutBlanks false (other.lineBreak depth ++ bracket :: tail) := by
  have hplain : isBlank bracket = false ∧ bracket ≠ '"' := by
    rcases List.mem_pair.mp hbracket with rfl | rfl <;> decide
  rw [withoutBlanks_lineBreak, withoutBlanks_lineBreak, withoutBlanks_cons hplain.1 hplain.2,
    withoutBlanks_cons hplain.1 hplain.2, h]

section Styles

variable {style other : Style}

theorem withoutBlanks_writeKey (hplain : style.escape = escapeChar)
    (hother : other.escape = escapeChar) (key : String) {cs ds : List Char}
    (hvalue : withoutBlanks false cs = withoutBlanks false ds) :
    withoutBlanks false (writeKey style key cs) = withoutBlanks false (writeKey other key ds) := by
  have hcolon (cs : List Char) :
      withoutBlanks false (':' :: ' ' :: cs) = ':' :: withoutBlanks false cs := by
    rw [withoutBlanks_cons (by decide) (by decide)]
    exact congrArg _ (AreBlanks.withoutBlanks_append (List.forall_mem_singleton.mpr rfl) cs)
  rw [writeKey, writeKey, withoutBlanks_writeString hplain, withoutBlanks_writeString hother,
    hcolon, hcolon, hvalue, writeString, writeString, hplain, hother]

mutual
/-- Written in two styles, a value has the same text up to blanks. -/
theorem withoutBlanks_write (hplain : style.escape = escapeChar)
    (hother : other.escape = escapeChar) : ∀ (level depth : Nat) (value : Json)
    {rest tail : List Char}, withoutBlanks false rest = withoutBlanks false tail →
      withoutBlanks false (write style level value rest) =
        withoutBlanks false (write other depth value tail)
  | _, _, null, _, _, h => congrArg ("null".toList ++ ·) h
  | _, _, bool true, _, _, h => congrArg ("true".toList ++ ·) h
  | _, _, bool false, _, _, h => congrArg ("false".toList ++ ·) h
  | _, _, num n, _, _, h => by
    rw [write, write, withoutBlanks_writeNumber, withoutBlanks_writeNumber, h]
  | _, _, str text, _, _, h => by
    rw [write, write, withoutBlanks_writeString hplain, withoutBlanks_writeString hother, h,
      writeString, writeString, hplain, hother]
  | _, _, arr [], _, _, h => congrArg ('[' :: ']' :: ·) h
  | _, _, obj [], _, _, h => congrArg ('{' :: '}' :: ·) h
  | level, depth, arr (item :: items), _, _, h => by
    have hitems := withoutBlanks_writeItems hplain hother (level + 1) (depth + 1) items
      (withoutBlanks_close style other level depth (by simp : ']' ∈ [']', '}']) h)
    have hitem := withoutBlanks_write hplain hother (level + 1) (depth + 1) item hitems
    rw [write, write, List.cons_append, List.cons_append,
      withoutBlanks_cons (by decide) (by decide), withoutBlanks_cons (by decide) (by decide),
      withoutBlanks_lineBreak, withoutBlanks_lineBreak, hitem]
  | level, depth, obj ((key, value) :: members), _, _, h => by
    have hmembers := withoutBlanks_writeMembers hplain hother (level + 1) (depth + 1) members
      (withoutBlanks_close style other level depth (by simp : '}' ∈ [']', '}']) h)
    have hvalue := withoutBlanks_write hplain hother (level + 1) (depth + 1) value hmembers
    rw [write_obj_cons, write_obj_cons, withoutBlanks_cons (by decide) (by decide),
      withoutBlanks_cons (by decide) (by decide), withoutBlanks_lineBreak, withoutBlanks_lineBreak,
      withoutBlanks_writeKey hplain hother key hvalue]

theorem withoutBlanks_writeItems (hplain : style.escape = escapeChar)
    (hother : other.escape = escapeChar) : ∀ (level depth : Nat) (items : List Json)
    {rest tail : List Char}, withoutBlanks false rest = withoutBlanks false tail →
      withoutBlanks false (writeItems style level items rest) =
        withoutBlanks false (writeItems other depth items tail)
  | _, _, [], _, _, h => h
  | level, depth, item :: items, _, _, h => by
    have hitems := withoutBlanks_writeItems hplain hother level depth items h
    rw [writeItems, writeItems, withoutBlanks_separator, withoutBlanks_separator,
      withoutBlanks_write hplain hother level depth item hitems]

theorem withoutBlanks_writeMembers (hplain : style.escape = escapeChar)
    (hother : other.escape = escapeChar) : ∀ (level depth : Nat) (members : List (String × Json))
    {rest tail : List Char}, withoutBlanks false rest = withoutBlanks false tail →
      withoutBlanks false (writeMembers style level members rest) =
        withoutBlanks false (writeMembers other depth members tail)
  | _, _, [], _, _, h => h
  | level, depth, (key, value) :: members, _, _, h => by
    have hmembers := withoutBlanks_writeMembers hplain hother level depth members h
    have hvalue := withoutBlanks_write hplain hother level depth value hmembers
    rw [writeMembers_cons, writeMembers_cons, withoutBlanks_separator, withoutBlanks_separator,
      withoutBlanks_writeKey hplain hother key hvalue]
end

end Styles

theorem escape_ofIndent (indent : Option Int) : (Style.ofIndent indent).escape = escapeChar := by
  unfold Style.ofIndent
  split <;> rfl

/-- The text of a document is read as the document, with its keys in order and its whole numbers and
binary64 numbers apart, whatever the indentation. So two documents have two texts, and two
indentations of one document differ in blanks outside the string literals only. -/
theorem text_ofIndent_faithful {doc : Json} (hdoc : doc.HasDistinctKeys) (indent : Option Int) :
    read? (text (.ofIndent indent) doc) = some doc ∧
      (∀ (other : Json) (width : Option Int), other.HasDistinctKeys → other ≠ doc →
        text (.ofIndent width) other ≠ text (.ofIndent indent) doc) ∧
      ∀ width : Option Int, withoutBlanks false (text (.ofIndent width) doc).toList =
        withoutBlanks false (text (.ofIndent indent) doc).toList := by
  have hread := read?_text (escape_ofIndent indent) hdoc
  refine ⟨hread, ?_, ?_⟩
  · intro other width hother hne heq
    have hsame := read?_text (escape_ofIndent width) hother
    rw [heq, hread] at hsame
    exact hne (Option.some.inj hsame).symm
  · intro width
    simp only [text, String.toList_ofList]
    exact withoutBlanks_write (escape_ofIndent width) (escape_ofIndent indent) 0 0 doc rfl

/-- A document with an escaped key, numbers of both kinds and an empty object. -/
theorem read?_nested :
    let doc : Json := .obj
      [("a\"\n", .arr [.num (.int (-1)), .num (.double (.ofDecimal true 1 0))]), ("b", .obj [])]
    doc.HasDistinctKeys ∧ read?
      "\x7b\n \"a\\\"\\n\": [\n  -1,\n  -1.0\n ],\n \"b\": \x7b\x7d\n\x7d" = some doc := by
  intro doc
  have hdoc : doc.HasDistinctKeys := by
    refine .obj (by decide) (List.forall_mem_cons.mpr ⟨.arr ?_, List.forall_mem_singleton.mpr ?_⟩)
    · exact List.forall_mem_cons.mpr ⟨.scalar rfl, List.forall_mem_singleton.mpr (.scalar rfl)⟩
    · exact .obj List.nodup_nil nofun
  have htext : text (.ofIndent (some 1)) doc =
      "\x7b\n \"a\\\"\\n\": [\n  -1,\n  -1.0\n ],\n \"b\": \x7b\x7d\n\x7d" := by
    decide +kernel
  exact ⟨hdoc, htext ▸ (text_ofIndent_faithful hdoc (some 1)).1⟩

end ShapeSchema.Json
