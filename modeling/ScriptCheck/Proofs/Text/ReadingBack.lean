import Mathlib
import ScriptCheck.Proofs.Lexer.Extent
import ScriptCheck.Text.Quoted

/-!
# Written text read back

Two values that are written alike are the same if what is written can be read back. Characters that
are spelled one by one in front of a mark are read back up to it (`Spelling.flatMap_spell_inj`),
which is why a quoted text stands for one text only (`quoted_injective`). An integer is read back up
to a character that is no part of one, and a row up to the mark between its entries.
-/

namespace ScriptCheck.Text

/-! ## Rows -/

/-- Rows are written differently if the mark between the entries is in none of them. -/
theorem intercalate_inj {α : Type} [DecidableEq α] {mark : α} {row row' : List (List α)}
    (hrow : ∀ entry ∈ row, mark ∉ entry) (hrow' : ∀ entry ∈ row', mark ∉ entry) (hne : row ≠ [])
    (hne' : row' ≠ []) (h : [mark].intercalate row = [mark].intercalate row') : row = row' := by
  rw [← List.splitOn_intercalate mark hrow hne, h, List.splitOn_intercalate mark hrow' hne']

/-! ## Integers -/

/-- Whether a character may be part of an integer. -/
def isIntegerPart (c : Char) : Bool :=
  c.isDigit || c == '-'

variable {c : Char} {i j : Int} {rest rest' : List Char}

theorem isIntegerPart_of_mem_repr {n : Nat} (hc : c ∈ n.repr.toList) : isIntegerPart c = true := by
  rw [Nat.repr_eq_ofList_toDigits, String.toList_ofList] at hc
  rw [isIntegerPart, Nat.isDigit_of_mem_toDigits (by decide) (by decide) hc, Bool.true_or]

theorem isIntegerPart_of_mem (hc : c ∈ (toString i).toList) : isIntegerPart c = true := by
  rw [Int.toString_eq_repr, Int.repr_eq_if] at hc
  split at hc
  · exact isIntegerPart_of_mem_repr hc
  · rw [String.toList_append, List.mem_append] at hc
    rcases hc with hc | hc
    · rw [List.mem_singleton.mp hc]
      rfl
    · exact isIntegerPart_of_mem_repr hc

theorem not_mem_toString (hc : isIntegerPart c = false) (i : Int) : c ∉ (toString i).toList :=
  fun hmem => absurd (isIntegerPart_of_mem hmem) (by simp [hc])

theorem toString_ne_nil (i : Int) : (toString i).toList ≠ [] := by
  have hdigits : ∀ n : Nat, n.repr.toList ≠ [] := fun n h =>
    Nat.repr_ne_empty (String.toList_eq_nil_iff.mp h)
  rw [Int.toString_eq_repr, Int.repr_eq_if]
  split
  · exact hdigits _
  · rw [String.toList_append]
    exact List.append_ne_nil_of_right_ne_nil _ (hdigits _)

/-- Integers are written differently, whatever comes behind them that is no part of one. -/
theorem toString_append_inj (hrest : NotNext isIntegerPart rest)
    (hrest' : NotNext isIntegerPart rest')
    (h : (toString i).toList ++ rest = (toString j).toList ++ rest') : i = j ∧ rest = rest' := by
  have hi := hrest.takeWhile_append fun c hc => isIntegerPart_of_mem (i := i) hc
  have hj := hrest'.takeWhile_append fun c hc => isIntegerPart_of_mem (i := j) hc
  have heq : (toString i).toList = (toString j).toList := by rw [← hi, h, hj]
  refine ⟨Int.repr_inj.mp (String.toList_inj.mp heq), ?_⟩
  rw [heq] at h
  exact List.append_cancel_left h

/-! ## Hexadecimal digits -/

/-- The value of a lower-case hexadecimal digit. -/
def hexDigitValue (c : Char) : Nat :=
  if c.toNat < 0x3a then c.toNat - 0x30 else c.toNat - 0x57

/-- The number that hexadecimal digits denote, most significant first. -/
def hexValue (ds : List Char) : Nat :=
  ds.foldl (fun n d => 16 * n + hexDigitValue d) 0

theorem hexDigitValue_hexDigit : ∀ n < 16, hexDigitValue (hexDigit n) = n := by
  decide

theorem length_hexDigits (width n : Nat) : (hexDigits width n).length = width := by
  induction width generalizing n with
  | zero => rfl
  | succ width ih => rw [hexDigits, List.length_append, ih, List.length_singleton]

/-- Digits denote the number that they are the digits of, if it has no more of them. -/
theorem hexValue_hexDigits {width n : Nat} (h : n < 16 ^ width) :
    hexValue (hexDigits width n) = n := by
  induction width generalizing n with
  | zero =>
    rw [Nat.lt_one_iff.mp h]
    rfl
  | succ width ih =>
    have hfront := ih (n := n / 16) (by omega)
    have hlast := hexDigitValue_hexDigit (n % 16) (Nat.mod_lt n (by decide))
    rw [hexValue] at hfront
    rw [hexValue, hexDigits, List.foldl_append, hfront, List.foldl_cons, List.foldl_nil, hlast]
    omega

theorem mem_hexDigits {width n : Nat} (hc : c ∈ hexDigits width n) :
    ∃ value < 16, c = hexDigit value := by
  induction width generalizing n with
  | zero => cases hc
  | succ width ih =>
    rcases List.mem_append.mp hc with hc | hc
    · exact ih hc
    · exact ⟨n % 16, Nat.mod_lt n (by decide), List.mem_singleton.mp hc⟩

/-- The number of the given count of hexadecimal digits that come next, and what is behind them. -/
def readHex (width : Nat) (cs : List Char) : Nat × List Char :=
  (hexValue (cs.take width), cs.drop width)

theorem readHex_hexDigits (width : Nat) {n : Nat} (h : n < 16 ^ width) (rest : List Char) :
    readHex width (hexDigits width n ++ rest) = (n, rest) := by
  have hlength := length_hexDigits width n
  rw [readHex, List.take_left' hlength, List.drop_left' hlength, hexValue_hexDigits h]

/-! ## Spelled characters -/

/-- No character has a code point between the surrogates, or beyond the last plane. -/
theorem toNat_cases (c : Char) :
    c.toNat < 0xd800 ∨ 0xdfff < c.toNat ∧ c.toNat < 0x110000 :=
  c.valid

/-- A way to spell characters in front of a mark: what is spelled is read back, one character at a
time, and nothing is read where the mark stands. -/
structure Spelling (mark : Char) where
  spell : Char → List Char
  read? : List Char → Option (Char × List Char)
  read?_spell : ∀ c rest, read? (spell c ++ rest) = some (c, rest)
  read?_mark : ∀ rest, read? (mark :: rest) = none

/-- Texts are spelled differently, whatever comes behind the mark. -/
theorem Spelling.flatMap_spell_inj {mark : Char} (S : Spelling mark) {cs ds : List Char}
    (h : cs.flatMap S.spell ++ mark :: rest = ds.flatMap S.spell ++ mark :: rest') :
    cs = ds ∧ rest = rest' := by
  -- Both texts are read one character at a time, and end together at the mark.
  induction cs generalizing ds with
  | nil =>
    cases ds with
    | nil => exact ⟨rfl, (List.cons.inj h).2⟩
    | cons d ds =>
      have hread := congrArg S.read? h
      rw [List.flatMap_cons, List.append_assoc, S.read?_spell] at hread
      exact absurd ((S.read?_mark rest).symm.trans hread) (by simp)
  | cons c cs ih =>
    have hread := congrArg S.read? h
    rw [List.flatMap_cons, List.append_assoc, S.read?_spell] at hread
    cases ds with
    | nil => exact absurd (hread.trans (S.read?_mark rest')) (by simp)
    | cons d ds =>
      rw [List.flatMap_cons, List.append_assoc, S.read?_spell, Option.some_inj, Prod.mk.injEq]
        at hread
      rcases ih hread.2 with ⟨rfl, hrest⟩
      exact ⟨by rw [hread.1], hrest⟩

/-! ## Quoted text -/

namespace Quoted

/-- Whether a character is used as a quote. -/
def IsMark (mark : Char) : Prop :=
  mark = singleQuote ∨ mark = doubleQuote

theorem isMark_mark (cs : List Char) : IsMark (mark cs) := by
  unfold mark
  split
  · exact Or.inr rfl
  · exact Or.inl rfl

/-- The next character of a quoted text, and what is behind it. -/
def read? (mark : Char) : List Char → Option (Char × List Char)
  | '\\' :: c :: rest =>
    if c = 'n' then some ('\n', rest)
    else if c = 'r' then some ('\r', rest)
    else if c = 't' then some ('\t', rest)
    else if c = 'x' then some ((readHex 2 rest).map .ofNat id)
    else if c = 'u' then some ((readHex 4 rest).map .ofNat id)
    else if c = 'U' then some ((readHex 8 rest).map .ofNat id)
    else some (c, rest)
  | c :: rest => if c = mark then none else some (c, rest)
  | [] => none

theorem read?_of_ne {mark : Char} (hc : c ≠ '\\') (rest : List Char) :
    read? mark (c :: rest) = if c = mark then none else some (c, rest) := by
  rw [read?]
  rintro d ds rfl
  exact absurd rfl hc

theorem read?_hexEscape (mark c : Char) (rest : List Char) :
    read? mark (hexEscape c ++ rest) = some (c, rest) := by
  have hread : ∀ width, c.toNat < 16 ^ width →
      (readHex width (hexDigits width c.toNat ++ rest)).map Char.ofNat id = (c, rest) := by
    intro width hwidth
    rw [readHex_hexDigits width hwidth, Prod.map_apply, Char.ofNat_toNat, id]
  unfold hexEscape
  split
  · next h => simpa [read?] using hread 2 h
  · split
    · next h => simpa [read?] using hread 4 h
    · have hmax : c.toNat < 16 ^ 8 := by
        rcases toNat_cases c with h | h <;> omega
      simpa [read?] using hread 8 hmax

theorem read?_escape {mark : Char} (hmark : IsMark mark) (c : Char) (rest : List Char) :
    read? mark (escape mark c ++ rest) = some (c, rest) := by
  unfold escape
  split_ifs with hself hn hr ht hshown
  · have hself : c = '\\' ∨ c = mark := by simpa using hself
    rcases hmark with rfl | rfl <;> rcases hself with rfl | rfl <;> rfl
  · subst hn; rfl
  · subst hr; rfl
  · subst ht; rfl
  · have hne : c ≠ '\\' ∧ c ≠ mark := by simpa using hself
    rw [List.singleton_append, read?_of_ne hne.1, if_neg hne.2]
  · exact read?_hexEscape mark c rest

/-- Between quotes characters are spelled as themselves or as escapes. -/
def spelling {mark : Char} (hmark : IsMark mark) : Spelling mark where
  spell := escape mark
  read? := read? mark
  read?_spell := read?_escape hmark
  read?_mark _ := by
    rcases hmark with rfl | rfl <;> rfl

/-- A quoted form is one of one text only. -/
theorem encode_injective {cs ds : List Char} (h : encode cs = encode ds) : cs = ds := by
  rcases List.cons.inj h with ⟨hmark, hbody⟩
  rw [hmark] at hbody
  exact ((spelling (isMark_mark ds)).flatMap_spell_inj hbody).1

theorem isPrintable_hexDigit : ∀ n < 16, isPrintable (hexDigit n) = true := by
  decide

theorem isPrintable_mark {mark : Char} (hmark : IsMark mark) : isPrintable mark = true := by
  rcases hmark with rfl | rfl <;> decide

theorem isPrintable_hexEscape {d : Char} (hd : d ∈ hexEscape c) : isPrintable d = true := by
  have hdigits : ∀ width, d ∈ hexDigits width c.toNat → isPrintable d = true := by
    intro width hd
    rcases mem_hexDigits hd with ⟨value, hvalue, rfl⟩
    exact isPrintable_hexDigit value hvalue
  have hescape : ∀ letter width, isPrintable letter = true →
      d ∈ '\\' :: letter :: hexDigits width c.toNat → isPrintable d = true := by
    intro letter width hletter hd
    rcases List.mem_cons.mp hd with rfl | hd
    · rfl
    · rcases List.mem_cons.mp hd with rfl | hd
      · exact hletter
      · exact hdigits width hd
  unfold hexEscape at hd
  split at hd
  · exact hescape 'x' 2 rfl hd
  · split at hd
    · exact hescape 'u' 4 rfl hd
    · exact hescape 'U' 8 rfl hd

theorem isPrintable_escape {mark d : Char} (hmark : IsMark mark) (hd : d ∈ escape mark c) :
    isPrintable d = true := by
  have hpair : ∀ letter, isPrintable letter = true → d ∈ ['\\', letter] →
      isPrintable d = true := by
    intro letter hletter hd
    rcases List.mem_pair.mp hd with rfl | rfl
    · rfl
    · exact hletter
  unfold escape at hd
  split_ifs at hd with hself hn hr ht hshown
  · have hself : c = '\\' ∨ c = mark := by simpa using hself
    refine hpair c ?_ hd
    rcases hself with rfl | rfl
    · rfl
    · exact isPrintable_mark hmark
  · exact hpair 'n' rfl hd
  · exact hpair 'r' rfl hd
  · exact hpair 't' rfl hd
  · exact List.mem_singleton.mp hd ▸ hshown
  · exact isPrintable_hexEscape hd

end Quoted

/-- Texts are quoted differently. -/
theorem quoted_injective {s t : String} (h : quoted s = quoted t) : s = t :=
  String.toList_inj.mp (Quoted.encode_injective (String.ofList_injective h))

/-- Whatever a text holds, it can be shown when it is quoted. -/
theorem isPrintable_quoted {s : String} (hc : c ∈ (quoted s).toList) : isPrintable c = true := by
  have hmark := Quoted.isMark_mark s.toList
  rw [quoted, String.toList_ofList, Quoted.encode] at hc
  rcases List.mem_cons.mp hc with rfl | hc
  · exact Quoted.isPrintable_mark hmark
  · rcases List.mem_append.mp hc with hc | hc
    · rcases List.mem_flatMap.mp hc with ⟨d, -, hd⟩
      exact Quoted.isPrintable_escape hmark hd
    · rw [List.mem_singleton.mp hc]
      exact Quoted.isPrintable_mark hmark

theorem not_mem_quoted (hc : isPrintable c = false) (s : String) : c ∉ (quoted s).toList :=
  fun hmem => absurd (isPrintable_quoted hmem) (by simp [hc])

end ScriptCheck.Text
