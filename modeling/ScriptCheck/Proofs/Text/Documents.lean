import ScriptCheck.Json
import ScriptCheck.Proofs.Text.ReadingBack

/-!
# The texts of documents

Documents without floating-point numbers have different texts (`Json.render_inj`). The first
character of a value tells its form, a text in it ends at its quote, an integer ends in front of the
comma or the line break that follows it, and behind each item or field comes a comma unless it is
the last.
-/

namespace ScriptCheck.Json

open ScriptCheck.Text

/-! ## Texts -/

/-- The next character of a text in a document, and what is behind it. The escape of one half of a
character above U+FFFF is read together with the escape that follows it. -/
def read? : List Char → Option (Char × List Char)
  | '\\' :: c :: rest =>
    if c = 'n' then some ('\n', rest)
    else if c = 'r' then some ('\r', rest)
    else if c = 't' then some ('\t', rest)
    else if c = 'f' then some ('\x0c', rest)
    else if c = 'b' then some ('\x08', rest)
    else if c = 'u' then
      let (upper, rest) := readHex 4 rest
      if 0xd800 ≤ upper && upper < 0xe000 then
        let (lower, rest) := readHex 4 (rest.drop 2)
        some (.ofNat (0x10000 + 0x400 * (upper - 0xd800) + (lower - 0xdc00)), rest)
      else some (.ofNat upper, rest)
    else some (c, rest)
  | c :: rest => if c = doubleQuote then none else some (c, rest)
  | [] => none

variable {c : Char} {n level : Nat} {rest rest' : List Char}

theorem read?_of_ne (hc : c ≠ '\\') (rest : List Char) :
    read? (c :: rest) = if c = doubleQuote then none else some (c, rest) := by
  rw [read?]
  rintro d ds rfl
  exact absurd rfl hc

/-- An escape that is no half of a character is read as the character of its number. -/
theorem read?_unitEscape (hn : n < 0x10000) (hhalf : n < 0xd800 ∨ 0xe000 ≤ n) (rest : List Char) :
    read? (unitEscape n ++ rest) = some (.ofNat n, rest) := by
  have hno : (0xd800 ≤ n && n < 0xe000) = false := by
    rw [← Bool.not_eq_true]
    simp only [Bool.and_eq_true, decide_eq_true_eq]
    omega
  simp [unitEscape, read?, readHex_hexDigits 4 hn, hno]

/-- Two halves are read as one character. -/
theorem read?_halves (upper lower : Nat) (hupper : upper < 0x400) (hlower : lower < 0x400)
    (rest : List Char) :
    read? (unitEscape (0xd800 + upper) ++ (unitEscape (0xdc00 + lower) ++ rest)) =
      some (.ofNat (0x10000 + 0x400 * upper + lower), rest) := by
  have hhalf : (0xd800 ≤ 0xd800 + upper && 0xd800 + upper < 0xe000) = true := by
    simp only [Bool.and_eq_true, decide_eq_true_eq]
    omega
  have hfirst := readHex_hexDigits 4 (n := 0xd800 + upper) (by omega)
    (unitEscape (0xdc00 + lower) ++ rest)
  have hsecond := readHex_hexDigits 4 (n := 0xdc00 + lower) (by omega) rest
  have hcode : 0x10000 + 0x400 * (0xd800 + upper - 0xd800) + (0xdc00 + lower - 0xdc00) =
      0x10000 + 0x400 * upper + lower := by omega
  simp only [unitEscape, List.cons_append] at hfirst ⊢
  simp only [read?, hfirst, hhalf, List.drop_succ_cons, List.drop_zero, hsecond, hcode]
  rfl

/-- The halves of a character are its upper and its lower bits, above the code points of one. -/
theorem read?_pair (hc : 0x10000 ≤ c.toNat) (rest : List Char) :
    read? (unitEscape (0xd800 + (c.toNat - 0x10000) / 0x400) ++
      unitEscape (0xdc00 + (c.toNat - 0x10000) % 0x400) ++ rest) = some (c, rest) := by
  have hmax : c.toNat < 0x110000 := by
    rcases toNat_cases c with h | h <;> omega
  have hcode : 0x10000 + 0x400 * ((c.toNat - 0x10000) / 0x400) + (c.toNat - 0x10000) % 0x400 =
      c.toNat := by omega
  have hread := read?_halves ((c.toNat - 0x10000) / 0x400) ((c.toNat - 0x10000) % 0x400)
    (by omega) (by omega) rest
  rw [hcode, Char.ofNat_toNat] at hread
  rw [List.append_assoc]
  exact hread

theorem read?_escape (c : Char) (rest : List Char) : read? (escape c ++ rest) = some (c, rest) := by
  unfold escape
  split_ifs with hself hn hr ht hf hb hshown hlow
  · have hself : c = '\\' ∨ c = doubleQuote := by simpa using hself
    rcases hself with rfl | rfl <;> rfl
  · subst hn; rfl
  · subst hr; rfl
  · subst ht; rfl
  · subst hf; rfl
  · subst hb; rfl
  · have hne : c ≠ '\\' ∧ c ≠ doubleQuote := by simpa using hself
    rw [List.singleton_append, read?_of_ne hne.1, if_neg hne.2]
  · have hhalf : c.toNat < 0xd800 ∨ 0xe000 ≤ c.toNat := by
      rcases toNat_cases c with h | h <;> omega
    rw [read?_unitEscape hlow hhalf, Char.ofNat_toNat]
  · exact read?_pair (Nat.le_of_not_lt hlow) rest

/-- The characters of a text are spelled as themselves or as escapes. -/
def spelling : Spelling doubleQuote where
  spell := escape
  read? := read?
  read?_spell := read?_escape
  read?_mark _ := rfl

theorem textChars_eq (s : String) (rest : List Char) :
    textChars s rest = doubleQuote :: (s.toList.flatMap escape ++ doubleQuote :: rest) := by
  rw [textChars]
  congr 1
  induction s.toList with
  | nil => rfl
  | cons c cs ih => rw [List.foldr_cons, ih, List.flatMap_cons, List.append_assoc]

/-- Texts are written differently, whatever comes behind them. -/
theorem textChars_inj {s t : String} (h : textChars s rest = textChars t rest') :
    s = t ∧ rest = rest' := by
  rw [textChars_eq, textChars_eq] at h
  rcases spelling.flatMap_spell_inj (List.cons.inj h).2 with ⟨hchars, hrest⟩
  exact ⟨String.toList_inj.mp hchars, hrest⟩

/-! ## Rows -/

theorem newline_inj (h : newline level rest = newline level rest') : rest = rest' :=
  List.append_cancel_left (List.cons.inj h).2

/-- What may come behind a value: nothing that could be part of an integer. -/
abbrev Stops (rest : List Char) : Prop :=
  NotNext isIntegerPart rest

section

variable {α : Type} (write : α → List Char → List Char)

/-- Entries in a row, each on a line of its own and with a comma in front of it. -/
def rowChars (level : Nat) (rest : List Char) (entries : List α) : List Char :=
  entries.foldr (fun entry after => ',' :: newline level (write entry after)) rest

/-- A row up to the bracket that closes it. No comma is in front of the first entry, and the bracket
has a line of its own if there is an entry. -/
def enclosed (close : Char) (level : Nat) (rest : List Char) : (entries : List α) → List Char
  | [] => close :: rest
  | entry :: entries =>
    newline (level + 1)
      (write entry (rowChars write (level + 1) (newline level (close :: rest)) entries))

variable {write} {entries entries' : List α}

theorem stops_rowChars (entries : List α) :
    Stops (rowChars write level (newline n rest) entries) := by
  cases entries <;> exact NotNext.cons_iff.mpr rfl

/-- Entries that can be told from each other. -/
def AreTold (write : α → List Char → List Char) (entries entries' : List α) : Prop :=
  ∀ entry ∈ entries, ∀ entry' ∈ entries', ∀ after after', Stops after → Stops after' →
    write entry after = write entry' after' → entry = entry' ∧ after = after'

/-- Rows are written differently if their entries are. A comma comes in front of each entry, and a
line break behind all. -/
theorem rowChars_inj (hwrite : AreTold write entries entries')
    (h : rowChars write level (newline n rest) entries =
      rowChars write level (newline n rest') entries') :
    entries = entries' ∧ rest = rest' := by
  induction entries generalizing entries' with
  | nil =>
    cases entries' with
    | nil => exact ⟨rfl, newline_inj h⟩
    | cons entry' entries' => exact absurd (List.cons.inj h).1 (by decide)
  | cons entry entries ih =>
    cases entries' with
    | nil => exact absurd (List.cons.inj h).1 (by decide)
    | cons entry' entries' =>
      rcases hwrite entry (by simp) entry' (by simp) _ _ (stops_rowChars entries)
        (stops_rowChars entries') (newline_inj (List.cons.inj h).2) with ⟨rfl, hafter⟩
      have hrow := ih (fun e he e' he' => hwrite e (by simp [he]) e' (by simp [he'])) hafter
      exact ⟨by rw [hrow.1], hrow.2⟩

theorem enclosed_inj {close : Char} (hclose : close ≠ '\n')
    (hwrite : AreTold write entries entries')
    (h : enclosed write close level rest entries = enclosed write close level rest' entries') :
    entries = entries' ∧ rest = rest' := by
  cases entries with
  | nil =>
    cases entries' with
    | nil => exact ⟨rfl, (List.cons.inj h).2⟩
    | cons entry' entries' => exact absurd (List.cons.inj h).1 hclose
  | cons entry entries =>
    cases entries' with
    | nil => exact absurd (List.cons.inj h).1.symm hclose
    | cons entry' entries' =>
      -- With a comma in front, what is between the brackets is a row.
      rcases rowChars_inj hwrite (congrArg (',' :: ·) h) with ⟨hentries, hrest⟩
      exact ⟨hentries, (List.cons.inj hrest).2⟩

end

theorem itemsChars_eq (level : Nat) (rest : List Char) (items : List Json) :
    itemsChars level rest items = rowChars (fun item after => item.chars level after) level rest
      items := by
  induction items with
  | nil => rfl
  | cons item items ih => rw [itemsChars, ih, rowChars, rowChars, List.foldr_cons]

/-- A field as it is written. -/
def fieldChars (level : Nat) (field : String × Json) (after : List Char) : List Char :=
  textChars field.1 (':' :: ' ' :: field.2.chars level after)

theorem fieldsChars_eq (level : Nat) (rest : List Char) (fields : List (String × Json)) :
    fieldsChars level rest fields = rowChars (fieldChars level) level rest fields := by
  induction fields with
  | nil => rfl
  | cons field fields ih => rw [fieldsChars, ih, rowChars, rowChars, List.foldr_cons, fieldChars]

theorem chars_list (level : Nat) (rest : List Char) (items : List Json) :
    (list items).chars level rest =
      '[' :: enclosed (fun item after => item.chars (level + 1) after) ']' level rest items := by
  cases items with
  | nil => rfl
  | cons item items => rw [chars, itemsChars_eq, enclosed]

theorem chars_object (level : Nat) (rest : List Char) (fields : List (String × Json)) :
    (object fields).chars level rest =
      '\x7b' :: enclosed (fieldChars (level + 1)) '\x7d' level rest fields := by
  cases fields with
  | nil => rfl
  | cons field fields => rw [chars, fieldsChars_eq, enclosed, fieldChars]

/-! ## Values -/

/-- Whether there is no floating-point number in a document. -/
inductive Floatless : Json → Prop where
  | null : Floatless .null
  | bool (b : Bool) : Floatless (.bool b)
  | int (i : Int) : Floatless (.int i)
  | text (s : String) : Floatless (.text s)
  | list {items : List Json} : (∀ item ∈ items, Floatless item) → Floatless (.list items)
  | object {fields : List (String × Json)} :
      (∀ field ∈ fields, Floatless field.2) → Floatless (.object fields)

attribute [simp] Floatless.null Floatless.bool Floatless.int Floatless.text

@[simp] theorem floatless_list_iff {items : List Json} :
    (list items).Floatless ↔ ∀ item ∈ items, item.Floatless := by
  constructor
  · rintro ⟨⟩
    assumption
  · exact .list

@[simp] theorem floatless_object_iff {fields : List (String × Json)} :
    (object fields).Floatless ↔ ∀ field ∈ fields, field.2.Floatless := by
  constructor
  · rintro ⟨⟩
    assumption
  · exact .object

/-- The character that a value starts with, unless it is a number. -/
def mark? : Json → Option Char
  | null => 'n'
  | bool b => if b then 't' else 'f'
  | text _ => doubleQuote
  | list _ => '['
  | object _ => '\x7b'
  | int _ | float _ => none

/-- The first character tells the form of a value. -/
theorem mark?_eq {j : Json} (hj : j.Floatless) (level : Nat) (rest : List Char) :
    (j.chars level rest).head?.filter (fun c => !isIntegerPart c) = j.mark? := by
  cases hj with
  | null => rfl
  | bool b => cases b <;> rfl
  | int i =>
    cases hi : (toString i).toList with
    | nil => exact absurd hi (toString_ne_nil i)
    | cons c cs =>
      have hc : isIntegerPart c = true := isIntegerPart_of_mem (i := i) (by rw [hi]; simp)
      rw [chars, hi, List.cons_append, List.head?_cons, Option.filter_some, hc]
      rfl
  | text s => rfl
  | @list items _ => cases items <;> rfl
  | @object fields _ => cases fields <;> rfl

/-- Whether two values are told from each other by how they are written, whatever comes behind
them. -/
def Told (j j' : Json) : Prop :=
  ∀ {level : Nat} {rest rest' : List Char}, Stops rest → Stops rest' →
    j.chars level rest = j'.chars level rest' → j = j' ∧ rest = rest'

theorem told_of_mark?_ne {j j' : Json} (hj : j.Floatless) (hj' : j'.Floatless)
    (hne : j.mark? ≠ j'.mark?) : Told j j' := by
  intro level rest rest' _ _ h
  rw [← mark?_eq hj level rest, h, mark?_eq hj'] at hne
  exact absurd rfl hne

theorem told_list {items items' : List Json}
    (h : ∀ item ∈ items, ∀ item' ∈ items', Told item item') : Told (list items) (list items') := by
  intro level rest rest' _ _ heq
  rw [chars_list, chars_list] at heq
  have hitems : AreTold (fun item after => item.chars (level + 1) after) items items' :=
    fun item hitem item' hitem' _ _ => h item hitem item' hitem'
  rcases enclosed_inj (by decide) hitems (List.cons.inj heq).2 with ⟨rfl, hrest⟩
  exact ⟨rfl, hrest⟩

theorem told_object {fields fields' : List (String × Json)}
    (h : ∀ field ∈ fields, ∀ field' ∈ fields', Told field.2 field'.2) :
    Told (object fields) (object fields') := by
  intro level rest rest' _ _ heq
  rw [chars_object, chars_object] at heq
  have hfields : AreTold (fieldChars (level + 1)) fields fields' := by
    rintro ⟨key, value⟩ hfield ⟨key', value'⟩ hfield' after after' hstops hstops' heq
    rcases textChars_inj heq with ⟨hkey, hbehind⟩
    -- A colon and a space come between the key and the value.
    have hvalue := (List.cons.inj (List.cons.inj hbehind).2).2
    rcases h _ hfield _ hfield' hstops hstops' hvalue with ⟨hvalue, hafter⟩
    exact ⟨Prod.ext hkey hvalue, hafter⟩
  rcases enclosed_inj (by decide) hfields (List.cons.inj heq).2 with ⟨rfl, hrest⟩
  exact ⟨rfl, hrest⟩

/-- All values are told from each other, but for floating-point numbers. -/
theorem Floatless.told {j j' : Json} (hj : j.Floatless) (hj' : j'.Floatless) : Told j j' := by
  -- Two values of one form are told by their parts, and others by their first characters.
  induction hj generalizing j' with
  | null =>
    cases j' with
    | null => exact fun _ _ h => ⟨rfl, List.append_cancel_left h⟩
    | _ => exact told_of_mark?_ne .null hj' (by grind [mark?, doubleQuote])
  | bool b =>
    cases j' with
    | bool b' =>
      cases b <;> cases b'
      · exact fun _ _ h => ⟨rfl, List.append_cancel_left h⟩
      · exact told_of_mark?_ne (.bool false) hj' (by decide)
      · exact told_of_mark?_ne (.bool true) hj' (by decide)
      · exact fun _ _ h => ⟨rfl, List.append_cancel_left h⟩
    | _ =>
      exact told_of_mark?_ne (.bool b) hj' (by grind [mark?, doubleQuote])
  | int i =>
    cases j' with
    | int i' =>
      intro level rest rest' hrest hrest' h
      rcases toString_append_inj hrest hrest' h with ⟨rfl, hafter⟩
      exact ⟨rfl, hafter⟩
    | float x => cases hj'
    | _ => exact told_of_mark?_ne (.int i) hj' (by grind [mark?])
  | text s =>
    cases j' with
    | text s' =>
      intro level rest rest' _ _ h
      rcases textChars_inj h with ⟨rfl, hafter⟩
      exact ⟨rfl, hafter⟩
    | _ => exact told_of_mark?_ne (.text s) hj' (by grind [mark?, doubleQuote])
  | list hitems ih =>
    cases j' with
    | list items' =>
      cases hj' with
      | list hitems' =>
        exact told_list fun item hitem item' hitem' => ih item hitem (hitems' item' hitem')
    | _ => exact told_of_mark?_ne (.list hitems) hj' (by grind [mark?, doubleQuote])
  | object hfields ih =>
    cases j' with
    | object fields' =>
      cases hj' with
      | object hfields' =>
        exact told_object fun field hfield field' hfield' =>
          ih field hfield (hfields' field' hfield')
    | _ => exact told_of_mark?_ne (.object hfields) hj' (by grind [mark?, doubleQuote])

/-- Documents are written differently. -/
theorem render_inj {j j' : Json} (hj : j.Floatless) (hj' : j'.Floatless)
    (h : j.render = j'.render) : j = j' :=
  (hj.told hj' (.nil _) (.nil _) (String.ofList_injective h)).1

end ScriptCheck.Json
