import ScriptCheck.Proofs.Lexer.Failing
import ScriptCheck.Proofs.Lexer.Rendering

/-!
# Texts that are further down

The tokens that cover the front of a text do not depend on the text behind them, but for the
character that comes next. And what stands in front of a place matters to the tokens behind it only
through the line and the column where they start. So a text may be put behind another front: if the
columns are the same, the rest of it gives the same tokens on other lines, or fails in the same way
(`tokenize_lowers`). A newline brings every text into the same column, so that texts can be joined
by newlines and read one by one (`tokenize_joined`).
-/

namespace ScriptCheck

open ScriptCheck.Text ScriptCheck.Lexeme

/-! ## What comes next -/

/-- Whether the next character of `rest'` is that of `rest`, or a newline. -/
def FollowsAs (rest rest' : List Char) : Prop :=
  ∀ c ∈ rest'.head?, c ∈ rest.head? ∨ c = '\n'

namespace FollowsAs

variable {rest rest' : List Char}

theorem newline (rest more : List Char) : FollowsAs rest ('\n' :: more) := by
  simp [FollowsAs]

/-- Behind some characters more, these come next. -/
theorem of_ne_nil {w : List Char} (hw : w ≠ []) : FollowsAs (w ++ rest) (w ++ rest') := by
  cases w with
  | nil => exact absurd rfl hw
  | cons c w => exact fun d hd => Or.inl hd

theorem append (h : FollowsAs rest rest') (w : List Char) : FollowsAs (w ++ rest) (w ++ rest') := by
  cases w with
  | nil => exact h
  | cons c w => exact of_ne_nil (List.cons_ne_nil c w)

theorem notNext (h : FollowsAs rest rest') {p : Char → Bool} (hp : p '\n' = false)
    (hrest : NotNext p rest) : NotNext p rest' := by
  intro c hc
  rcases h c hc with hc | rfl
  · exact hrest c hc
  · exact hp

theorem gap (h : FollowsAs rest rest') {gap : List Char} (hgap : Gap gap rest) :
    Gap gap rest' := by
  induction hgap with
  | nil rest => exact .nil rest'
  | blank hc _ ih => exact .blank hc (ih h)
  | @comment body gap rest hbody hend _ ih =>
    refine .comment hbody (fun c hc => ?_) (ih h)
    rcases h.append gap c hc with hc | hc
    · exact hend c hc
    · exact hc

/-- An operator has two characters at most, and neither of them is a newline. -/
theorem starts (h : FollowsAs rest rest') {op : Operator} {w : List Char} (hw : w ≠ [])
    (hstarts : op.Starts (w ++ rest')) : op.Starts (w ++ rest) := by
  rcases op.exists_symbol with ⟨a, bs, hsymbol, hlength, hsecond⟩
  unfold Operator.Starts at hstarts ⊢
  rw [hsymbol] at hstarts ⊢
  cases w with
  | nil => exact absurd rfl hw
  | cons c w =>
    rcases List.cons_prefix_cons.mp hstarts with ⟨rfl, hinside⟩
    refine List.cons_prefix_cons.mpr ⟨rfl, ?_⟩
    cases bs with
    | nil => exact List.nil_prefix
    | cons b bs =>
      obtain rfl : bs = [] := List.eq_nil_of_length_eq_zero (by simpa using hlength)
      rcases hinside with ⟨more, hmore⟩
      change [b] ++ more = w ++ rest' at hmore
      -- Its second character is the next one, or it is a newline, which is second to none.
      rcases h.append w b (by rw [← hmore]; rfl) with hb | rfl
      · rcases List.head?_eq_some_iff.mp hb with ⟨more', hmore'⟩
        change [b] <+: w ++ rest
        rw [hmore']
        exact List.cons_prefix_cons.mpr ⟨rfl, List.nil_prefix⟩
      · exact absurd (hsecond '\n' (by simp)) (by decide)

/-- A newline goes on with no token. -/
theorem lexes (h : FollowsAs rest rest') {span : List Char} {t : Token}
    (hlexes : Lexes span rest t) : Lexes span rest' t := by
  cases hlexes with
  | eol => exact .eol
  | word hc hcs hrest => exact .word hc hcs (h.notNext (by decide) hrest)
  | integer hc hdigits hrest hvalue =>
    exact .integer hc hdigits (h.notNext (by decide) hrest) hvalue
  | real hc hwhole hfraction hrest hvalue =>
    exact .real hc hwhole hfraction (h.notNext (by decide) hrest) hvalue
  | string hquote hbody => exact .string hquote hbody
  | @operator op _ _ _ hlongest =>
    have hnil : op.symbol.toList ≠ [] := by
      rcases op.exists_mark with ⟨c, cs, hsymbol, -⟩
      simp [hsymbol]
    exact .operator fun op' hstarts => hlongest op' (h.starts hnil hstarts)
  | @error c _ _ _ hmark hno =>
    exact .error hmark fun op hstarts =>
      hno op (h.starts (w := [c]) (List.cons_ne_nil c []) hstarts)

end FollowsAs

/-- A newline is the one character that makes an end of line. -/
theorem Lexes.span_of_eol {span rest : List Char} {t : Token} (h : Lexes span rest t)
    (hkind : t.kind = .eol) : span = ['\n'] := by
  cases h with
  | eol => rfl
  | word _ _ _ => exact absurd hkind (Kind.ofWord_ne (by simp) (by simp) _)
  | _ => simp at hkind

/-- Nothing that comes behind an end of line makes it another token. -/
theorem Lexes.of_eol {span rest : List Char} {t : Token} (h : Lexes span rest t)
    (hkind : t.kind = .eol) (rest' : List Char) : Lexes span rest' t := by
  cases h with
  | eol => exact .eol
  | word _ _ _ => exact absurd hkind (Kind.ofWord_ne (by simp) (by simp) _)
  | _ => simp at hkind

/-! ## Fronts -/

namespace Covers

variable {P : List Char → List Char → Token → Prop} {before front front' rest rest' : List Char}
  {t : Token} {ts us : List Token}

theorem append (h : Covers P before front (front' ++ rest) ts)
    (h' : Covers P (before ++ front) front' rest us) :
    Covers P before (front ++ front') rest (ts ++ us) := by
  generalize hbehind : front' ++ rest = behind at h
  induction h with
  | nil before _ => simpa using h'
  | @cons before gap span front _ t ts hgap ht hplace _ ih =>
    subst hbehind
    have hsplit : gap ++ (span ++ front) ++ front' = gap ++ (span ++ (front ++ front')) := by simp
    rw [hsplit]
    rw [← List.append_assoc front] at hgap ht
    exact .cons hgap ht hplace (ih (by simpa only [List.append_assoc] using h') rfl)

theorem tiles (h : Covers P before front rest ts) (h' : Tiles P (before ++ front) rest us) :
    Tiles P before (front ++ rest) (ts ++ us) := by
  induction h with
  | nil before _ => simpa using h'
  | @cons before gap span front rest t ts hgap ht hplace _ ih =>
    have hsplit : gap ++ (span ++ front) ++ rest = gap ++ (span ++ (front ++ rest)) := by simp
    rw [hsplit]
    exact .next hgap ht hplace (ih (by simpa only [List.append_assoc] using h'))

/-- Tokens that cover a front cover it before another rest, too, if no character comes next that did
not, or a newline does. -/
theorem followsAs (h : Covers Lexes before front rest ts) (hnext : FollowsAs rest rest') :
    Covers Lexes before front rest' ts := by
  induction h with
  | nil before _ => exact .nil before rest'
  | @cons before gap span front rest t ts hgap hlexes hplace _ ih =>
    have hbehind := hnext.append front
    exact .cons ((hbehind.append span).gap hgap) (hbehind.lexes hlexes) hplace (ih hnext)

theorem front_ne_nil (h : Covers Lexes before front rest (t :: ts)) : front ≠ [] := by
  cases h with
  | cons _ hlexes _ _ => simp [hlexes.span_ne_nil]

/-- Whatever comes behind an end of line, it is read as one, and so is what is in front of it. -/
theorem change_rest (h : Covers Lexes before front rest (ts ++ [t])) (hkind : t.kind = .eol)
    (rest' : List Char) : Covers Lexes before front rest' (ts ++ [t]) := by
  generalize hall : ts ++ [t] = us at h
  induction h generalizing ts with
  | nil _ _ => simp at hall
  | @cons before gap span front rest u us hgap hlexes hplace hcovers ih =>
    have hbehind : FollowsAs (span ++ (front ++ rest)) (span ++ (front ++ rest')) :=
      .of_ne_nil hlexes.span_ne_nil
    cases ts with
    | nil =>
      obtain ⟨rfl, rfl⟩ : t = u ∧ [] = us := by simpa using hall
      cases hcovers
      exact .cons (hbehind.gap hgap) (hlexes.of_eol hkind _) hplace (.nil _ _)
    | cons v ts =>
      obtain ⟨rfl, rfl⟩ : v = u ∧ ts ++ [t] = us := by simpa using hall
      -- There is some of the front left, and its first character comes next.
      have hfront : front ≠ [] := by cases ts <;> exact front_ne_nil hcovers
      exact .cons (hbehind.gap hgap) ((FollowsAs.of_ne_nil hfront).lexes hlexes) hplace (ih rfl)

/-- The last character in front of what is behind an end of line is a newline. -/
theorem exists_newline (h : Covers Lexes before front rest (ts ++ [t])) (hkind : t.kind = .eol) :
    ∃ w, front = w ++ ['\n'] := by
  generalize hall : ts ++ [t] = us at h
  induction h generalizing ts with
  | nil _ _ => simp at hall
  | @cons before gap span front rest u us _ hlexes _ hcovers ih =>
    cases ts with
    | nil =>
      obtain ⟨rfl, rfl⟩ : t = u ∧ [] = us := by simpa using hall
      cases hcovers
      exact ⟨gap, by rw [hlexes.span_of_eol hkind, List.append_nil]⟩
    | cons v ts =>
      obtain ⟨rfl, rfl⟩ : v = u ∧ ts ++ [t] = us := by simpa using hall
      rcases ih rfl with ⟨w, rfl⟩
      exact ⟨gap ++ (span ++ w), by simp⟩

end Covers

/-- The end of the line behind the characters `before`. -/
def Token.eolBehind (before : List Char) : Token where
  kind := .eol
  text := "\n"
  line := lineAfter before
  column := columnAfter before

/-- A text that is covered is covered by the same tokens in front of a newline, which takes the
place of the end of the input. -/
theorem Tiles.covers_newline {before ahead : List Char} {ts : List Token}
    (h : Tiles Lexes before ahead ts) (rest : List Char) :
    ∃ us, ts = us ++ [.endBehind (before ++ ahead)] ∧
      Covers Lexes before (ahead ++ ['\n']) rest (us ++ [.eolBehind (before ++ ahead)]) := by
  induction h with
  | @finish before gap hgap =>
    have hgap' : Gap gap ('\n' :: rest) := (FollowsAs.newline [] rest).gap hgap
    have hlexes : Lexes ['\n'] ([] ++ rest) (.eolBehind (before ++ gap)) := .eol
    exact ⟨[], rfl, .cons hgap' hlexes ⟨rfl, rfl⟩ (.nil _ _)⟩
  | @next before gap span behind t ts hgap hlexes hplace _ ih =>
    rcases ih with ⟨us, rfl, hcovers⟩
    have hsplit : gap ++ (span ++ behind) ++ ['\n'] = gap ++ (span ++ (behind ++ ['\n'])) := by simp
    have hnext : FollowsAs behind (behind ++ ['\n'] ++ rest) := by
      rw [List.append_assoc]
      simpa using (FollowsAs.newline [] rest).append behind
    refine ⟨t :: us, by simp, ?_⟩
    rw [hsplit, List.cons_append]
    refine .cons ((hnext.append span).gap hgap) (hnext.lexes hlexes) hplace ?_
    simpa only [List.append_assoc] using hcovers

/-! ## Lines further down -/

/-- Whether what comes behind `before'` is in the same column as what comes behind `before`, and `k`
lines further down. -/
structure Lowers (k : Int) (before before' : List Char) : Prop where
  line_eq : lineAfter before' = lineAfter before + k
  column_eq : columnAfter before' = columnAfter before

namespace Lowers

variable {k : Int} {before before' : List Char}

theorem append_singleton (h : Lowers k before before') (c : Char) :
    Lowers k (before ++ [c]) (before' ++ [c]) where
  line_eq := by
    rw [lineAfter_append_singleton, lineAfter_append_singleton, h.line_eq]
    split <;> omega
  column_eq := by
    rw [columnAfter_append_singleton, columnAfter_append_singleton, h.column_eq]

/-- What goes on in the same way stays as far apart. -/
theorem append (h : Lowers k before before') (w : List Char) :
    Lowers k (before ++ w) (before' ++ w) := by
  induction w generalizing before before' with
  | nil => simpa using h
  | cons c w ih =>
    rw [List.append_cons, List.append_cons before']
    exact ih (h.append_singleton c)

end Lowers

/-- The token `k` lines further down. -/
def Token.lowered (k : Int) (t : Token) : Token :=
  { t with line := t.line + k }

/-- The fault `k` lines further down. Numbers that denote none have no place. -/
def Lexer.Fault.lowered (k : Int) : Lexer.Fault → Lexer.Fault
  | unterminatedString line column => unterminatedString (line + k) column
  | malformedNumber line column => malformedNumber (line + k) column
  | numeral fault => numeral fault
  | pastEnd position line => pastEnd position (line + k)
  | beforeText => beforeText

section

variable {k : Int} {before before' ahead front rest : List Char} {t : Token} {ts : List Token}
  {fault : Lexer.Fault}

theorem Token.StandsBehind.lowered (h : t.StandsBehind before) (hlowers : Lowers k before before') :
    (t.lowered k).StandsBehind before' :=
  ⟨by rw [hlowers.line_eq, ← h.1]; rfl, by rw [hlowers.column_eq, ← h.2]; rfl⟩

theorem Token.endBehind_lowered (hlowers : Lowers k before before') :
    (Token.endBehind before).lowered k = .endBehind before' := by
  simp [Token.lowered, Token.endBehind, hlowers.line_eq, hlowers.column_eq]

theorem Tiles.lowered (h : Tiles Lexes before ahead ts) (hlowers : Lowers k before before') :
    Tiles Lexes before' ahead (ts.map (Token.lowered k)) := by
  induction h generalizing before' with
  | @finish before gap hgap =>
    rw [List.map_singleton, Token.endBehind_lowered (hlowers.append gap)]
    exact .finish hgap
  | @next before gap span rest t ts hgap hlexes hplace _ ih =>
    have hbehind := hlowers.append gap
    exact .next hgap (hlexes.move _ t.column) (hplace.lowered hbehind) (ih (hbehind.append span))

theorem Covers.lowered (h : Covers Lexes before front rest ts) (hlowers : Lowers k before before') :
    Covers Lexes before' front rest (ts.map (Token.lowered k)) := by
  induction h generalizing before' with
  | nil _ rest => exact .nil before' rest
  | @cons before gap span front rest t ts hgap hlexes hplace _ ih =>
    have hbehind := hlowers.append gap
    exact .cons hgap (hlexes.move _ t.column) (hplace.lowered hbehind) (ih (hbehind.append span))

theorem Jams.lowered {line column : Int} (h : Jams line column ahead fault) (k : Int) :
    Jams (line + k) column ahead (fault.lowered k) := by
  cases h with
  | twoPoints hword hwhole hfraction => exact .twoPoints hword hwhole hfraction
  | integer hword hdigits hrest hvalue => exact .integer hword hdigits hrest hvalue
  | real hword hwhole hfraction hrest hvalue => exact .real hword hwhole hfraction hrest hvalue
  | unclosed hquote hinside => exact .unclosed hquote hinside

theorem FailsBehind.lowered (h : FailsBehind before ahead fault)
    (hlowers : Lowers k before before') : FailsBehind before' ahead (fault.lowered k) := by
  rcases h with ⟨gap, jam, rfl, hgap, hjams⟩
  refine ⟨gap, jam, rfl, hgap, ?_⟩
  have hbehind := hlowers.append gap
  rw [hbehind.line_eq, hbehind.column_eq]
  exact hjams.lowered k

end

/-! ## Whole texts -/

/-- Behind a front that tokens cover, reading goes on with the rest of the text. -/
theorem tokenize_covered {source : String} {front rest : List Char} {us : List Token}
    (hsplit : source.toList = front ++ rest) (h : Covers Lexes [] front rest us) :
    (∃ ts, tokenize source = .ok (us ++ ts) ∧ Tiles Lexes front rest ts) ∨
      ∃ fault front' rest' ts, tokenize source = .error fault ∧ rest = front' ++ rest' ∧
        Covers Lexes front front' rest' ts ∧ FailsBehind (front ++ front') rest' fault := by
  rcases Stream.tokensAfter_covers h (Stream.behind_ofText source) hsplit #[]
    with ⟨s, hs, hrest, hall⟩
  have hread : tokenize source = (s.tokensAfter (#[] ++ us.toArray)).1 := by
    rw [← hall]
    rfl
  cases houtcome : s.tokensAfter (#[] ++ us.toArray) with
  | mk outcome s' =>
    rw [houtcome] at hread
    cases outcome with
    | ok tokens =>
      rcases Stream.tokensAfter_tiles hs houtcome with ⟨ts, rfl, htiles⟩
      rw [hrest] at htiles
      exact Or.inl ⟨ts, by simpa using hread, htiles⟩
    | error fault =>
      rcases Stream.tokensAfter_fails hs houtcome with ⟨front', rest', ts, hfront, hcovers, hfails⟩
      rw [hrest] at hfront
      exact Or.inr ⟨fault, front', rest', ts, hread, hfront, hcovers, hfails⟩

/-- Two texts that go on in the same way behind fronts that are covered are read in the same way
from there on, if the columns are the same. -/
theorem tokenize_lowers {source source' : String} {front front' rest : List Char}
    {us us' : List Token} {k : Int} (hsplit : source.toList = front ++ rest)
    (h : Covers Lexes [] front rest us) (hsplit' : source'.toList = front' ++ rest)
    (h' : Covers Lexes [] front' rest us') (hlowers : Lowers k front front') :
    (∃ ts, tokenize source = .ok (us ++ ts) ∧
        tokenize source' = .ok (us' ++ ts.map (Token.lowered k)) ∧ Tiles Lexes front rest ts) ∨
      ∃ fault, tokenize source = .error fault ∧ tokenize source' = .error (fault.lowered k) := by
  rcases tokenize_covered hsplit h
    with ⟨ts, hok, htiles⟩ | ⟨fault, inner, behind, ts, herror, rfl, hcovers, hfails⟩
  · refine Or.inl ⟨ts, hok, ?_, htiles⟩
    rw [tokenize_eq_ok_iff, hsplit']
    exact h'.tiles (htiles.lowered hlowers)
  · refine Or.inr ⟨fault, herror, tokenize_eq_error_iff.mpr ?_⟩
    refine ⟨front' ++ inner, behind, _, by rw [hsplit', List.append_assoc],
      h'.append (hcovers.lowered hlowers), hfails.lowered (hlowers.append inner)⟩

/-! ## One text behind another -/

/-- What comes behind a text and a newline is in the first column, and further down by the lines of
the text. -/
theorem lowers_newline (text : List Char) :
    Lowers (1 + (text.count '\n' : Nat)) [] (text ++ ['\n']) where
  line_eq := by
    have hstart : lineAfter [] = 1 := rfl
    rw [lineAfter_append_singleton, if_pos rfl, hstart, lineAfter]
    omega
  column_eq := by
    rw [columnAfter_append_singleton, if_pos rfl]
    rfl

/-- Behind a text that is divided into tokens and a newline, another text is read as it is by
itself, only further down. An end of line takes the place of the end of the input. -/
theorem tokenize_joined {source₁ : String} {ts₁ : List Token} (h : tokenize source₁ = .ok ts₁)
    (source₂ : String) :
    ∃ front eof, ts₁ = front ++ [eof] ∧ eof.kind = .eof ∧
      tokenize (source₁ ++ "\n" ++ source₂) =
        match tokenize source₂ with
        | .ok ts₂ =>
          .ok (front ++ { kind := .eol, text := "\n", line := eof.line, column := eof.column }
            :: ts₂.map (Token.lowered (1 + (source₁.toList.count '\n' : Nat))))
        | .error fault => .error (fault.lowered (1 + (source₁.toList.count '\n' : Nat))) := by
  have hlowers := lowers_newline source₁.toList
  rcases (tokenize_eq_ok_iff.mp h).covers_newline source₂.toList with ⟨front, rfl, hcovers⟩
  have hjoined : (source₁ ++ "\n" ++ source₂).toList =
      source₁.toList ++ ['\n'] ++ source₂.toList := by
    rw [String.toList_append, String.toList_append]
    rfl
  refine ⟨front, .endBehind ([] ++ source₁.toList), rfl, rfl, ?_⟩
  -- Both texts go on in the same way: the one from its start, the other behind the newline.
  rcases tokenize_lowers rfl (.nil [] source₂.toList) hjoined hcovers hlowers
    with ⟨ts₂, hfirst, hsecond, -⟩ | ⟨fault, hfirst, hsecond⟩
  · rw [List.nil_append] at hfirst
    rw [hfirst, hsecond, List.append_assoc]
    rfl
  · rw [hfirst, hsecond]

/-- A string over two lines, and a comment that nothing ends. -/
def openComment : String :=
  "a 'b\nc' # 'd"

/-- The comment ends at the newline. The text behind that is read on the lines below, and where it
fails the place is there, too. -/
theorem tokenize_joined_openComment :
    ∃ front, tokenize openComment = .ok (front ++ [.endBehind openComment.toList]) ∧
      tokenize (openComment ++ "\n" ++ "x") =
        .ok (front ++ [{ kind := .eol, text := "\n", line := 2, column := 8 },
          { kind := .ident, text := "x", line := 3, column := 1 },
          { kind := .eof, text := "", line := 3, column := 2 }]) ∧
      tokenize (openComment ++ "\n" ++ "x '") = .error (.unterminatedString 3 3) := by
  have hfirst : tokenize openComment =
      .ok ([{ kind := .ident, text := "a", line := 1, column := 1 },
        { kind := .string, text := "b\nc", line := 1, column := 3,
          literal := some (.text "b\nc") }] ++ [.endBehind openComment.toList]) := by
    decide +kernel
  have hword : tokenize "x" =
      .ok [{ kind := .ident, text := "x", line := 1, column := 1 },
        { kind := .eof, text := "", line := 1, column := 2 }] := by
    decide +kernel
  have hquote : tokenize "x '" = .error (.unterminatedString 1 3) := by decide +kernel
  refine ⟨_, hfirst, ?_, ?_⟩
  · rcases tokenize_joined hfirst "x" with ⟨front, eof, hsplit, -, hjoined⟩
    rcases List.append_inj' hsplit rfl with ⟨rfl, hend⟩
    obtain rfl := (List.cons.inj hend).1
    rw [hjoined, hword]
    rfl
  · rcases tokenize_joined hfirst "x '" with ⟨_, _, -, -, hjoined⟩
    rw [hjoined, hquote]
    rfl

end ScriptCheck
