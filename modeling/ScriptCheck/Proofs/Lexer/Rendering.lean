import ScriptCheck.Proofs.Lexer.Tiling

/-!
# Tokens written out again

Tokens that a text has been divided into can be written out with blanks between them, and the text
that this gives is divided into the same tokens, their places aside (`tokenize_rendered`). What
stands next to a token in the first text is no matter: a blank goes on with no token, and a string
may change its quotes.
-/

namespace ScriptCheck

open ScriptCheck.Text ScriptCheck.Lexeme

/-- What a token is, its place aside. -/
def Token.content (t : Token) : Kind × String × Option Literal :=
  (t.kind, t.text, t.literal)

/-- Tokens written out in order, with the given runs of characters between them. -/
inductive Renders : (runs : List (List Char)) → List Token → (text : List Char) → Prop where
  | last {t : Token} {word : List Char} : t.IsWrittenAs word → Renders [] [t] word
  | next {t : Token} {ts : List Token} {word run text : List Char} {runs : List (List Char)} :
      t.IsWrittenAs word → Renders runs ts text →
      Renders (run :: runs) (t :: ts) (word ++ (run ++ text))

/-- Whether a run consists of spaces and tabs. -/
def IsRun (run : List Char) : Prop :=
  ∀ c ∈ run, c = ' ' ∨ c = '\t'

/-! ## One token -/

theorem Lexes.move {span rest : List Char} {t : Token} (h : Lexes span rest t)
    (line column : Int) : Lexes span rest { t with line, column } := by
  cases h with
  | eol => exact .eol
  | word hc hcs hrest => exact .word hc hcs hrest
  | integer hword hdigits hrest hvalue => exact .integer hword hdigits hrest hvalue
  | real hword hwhole hfraction hrest hvalue =>
    exact .real hword hwhole hfraction hrest hvalue
  | string hquote hbody => exact .string hquote hbody
  | operator hlongest => exact .operator hlongest
  | error hmark hno => exact .error hmark hno

/-- Blanks are not of a class that has neither the space nor the tab. -/
theorem NotNext.of_isRun {p : Char → Bool} {r : List Char} (hspace : p ' ' = false)
    (htab : p '\t' = false) (hr : IsRun r.head?.toList) : NotNext p r := by
  intro c hc
  rcases hr c (by simpa using hc) with rfl | rfl
  · exact hspace
  · exact htab

/-- However a token is written, it is read from that in front of a blank or the end. -/
theorem Lexes.rewritten {span rest word rest' : List Char} {t : Token} (h : Lexes span rest t)
    (hword : t.IsWrittenAs word) (hrest' : IsRun rest'.head?.toList) : Lexes word rest' t := by
  cases h with
  | eol =>
    obtain rfl : word = ['\n'] := by
      simpa using (Token.isWrittenAs_of_kind_ne (by simp)).mp hword
    exact .eol
  | word hc hcs _ =>
    obtain rfl := (Token.isWrittenAs_of_kind_ne (Kind.ofWord_ne_string _)).mp hword
    rw [String.toList_ofList]
    exact .word hc hcs (.of_isRun (by decide) (by decide) hrest')
  | integer hstart hdigits _ hvalue =>
    obtain rfl := (Token.isWrittenAs_of_kind_ne (by simp)).mp hword
    rw [String.toList_ofList]
    exact .integer hstart hdigits (.of_isRun (by decide) (by decide) hrest') hvalue
  | real hstart hwhole hfraction _ hvalue =>
    obtain rfl := (Token.isWrittenAs_of_kind_ne (by simp)).mp hword
    rw [String.toList_ofList]
    exact .real hstart hwhole hfraction (.of_isRun (by decide) (by decide) hrest') hvalue
  | string _ hbody =>
    unfold Token.IsWrittenAs at hword
    rw [if_pos rfl, String.toList_ofList] at hword
    rcases hword with ⟨quote, hquote, hno, rfl⟩
    exact .string hquote (hbody.requote hno)
  | @operator op _ _ _ _ =>
    obtain rfl := (Token.isWrittenAs_of_kind_ne (by simp)).mp hword
    -- An operator that reaches into the blank would have it as its second character.
    refine .operator fun op' hstarts => ?_
    have hnil : op.symbol.toList ≠ [] := by
      rcases op.exists_mark with ⟨c, cs, hsymbol, -⟩
      simp [hsymbol]
    have hinside := hstarts.of_append hnil (.of_isRun (by decide) (by decide) hrest')
    rw [← String.length_toList (s := op.symbol)]
    exact hinside.length_le
  | @error c _ _ _ hmark hno =>
    obtain rfl : word = [c] := by
      simpa using (Token.isWrittenAs_of_kind_ne (by simp)).mp hword
    refine .error hmark fun op hstarts => ?_
    rcases hstarts.of_append (w := [c]) (by simp) (.of_isRun (by decide) (by decide) hrest')
      with ⟨more, hmore⟩
    exact hno op (List.IsPrefix.trans ⟨more, hmore⟩ (List.prefix_append [c] _))

/-- Blanks may stand in front of any gap. -/
theorem Gap.isRun_append {run gap rest : List Char} (h : IsRun run) (hgap : Gap gap rest) :
    Gap (run ++ gap) rest := by
  induction run with
  | nil => exact hgap
  | cons c run ih =>
    refine .blank ?_ (ih fun d hd => h d (by simp [hd]))
    rcases h c (by simp) with rfl | rfl
    · exact Or.inl rfl
    · exact Or.inr (Or.inl rfl)

theorem Gap.of_isRun {run : List Char} (h : IsRun run) (rest : List Char) : Gap run rest := by
  simpa using Gap.isRun_append h (.nil rest)

/-! ## All tokens -/

variable {before ahead text : List Char} {ts : List Token} {runs : List (List Char)}

/-- There are as many ways to write tokens out as there are runs to put between them. -/
theorem Tiles.exists_renders (h : Tiles Lexes before ahead ts)
    (hlength : runs.length + 1 = ts.length) : ∃ text, Renders runs ts text := by
  induction h generalizing runs with
  | finish _ =>
    obtain rfl : runs = [] := List.eq_nil_of_length_eq_zero (by simpa using hlength)
    exact ⟨_, .last ((Token.isWrittenAs_of_kind_ne (by simp [Token.endBehind])).mpr rfl)⟩
  | next _ hlexes _ htiles ih =>
    cases runs with
    | nil =>
      rcases htiles.exists_end with ⟨front, rfl, -⟩
      simp at hlength
    | cons run runs =>
      have hrest := Nat.succ.inj hlength
      rcases ih hrest with ⟨text, htext⟩
      exact ⟨_, .next hlexes.isWrittenAs htext⟩

/-- The end of the input is written as nothing. -/
theorem Tiles.nil_of_renders (h : Tiles Lexes before ahead ts) (htext : Renders [] ts text) :
    text = [] := by
  cases htext with
  | last hword =>
    cases h with
    | finish _ =>
      exact (Token.isWrittenAs_of_kind_ne (by simp [Token.endBehind])).mp hword
    | next _ _ _ htiles =>
      rcases htiles.exists_end with ⟨front, hfront, -⟩
      simp at hfront

/-- What tokens are written out as is covered by the same tokens at other places. -/
theorem Tiles.rendered (h : Tiles Lexes before ahead ts) (htext : Renders runs ts text)
    (hruns : ∀ run ∈ runs, IsRun run) (hne : ∀ run ∈ runs.dropLast, run ≠ [])
    (before' : List Char) {gap : List Char} (hgap : IsRun gap) :
    ∃ ts', Tiles Lexes before' (gap ++ text) ts' ∧
      ts'.map Token.content = ts.map Token.content := by
  induction h generalizing runs text before' gap with
  | @finish before gap₀ _ =>
    cases htext with
    | last hword =>
      obtain rfl := (Token.isWrittenAs_of_kind_ne (by simp [Token.endBehind])).mp hword
      have hlast : gap ++ (Token.endBehind (before ++ gap₀)).text.toList = gap :=
        List.append_nil gap
      rw [hlast]
      exact ⟨_, .finish (.of_isRun hgap []), rfl⟩
    | next _ htext => cases htext
  | @next before gap₀ span rest t ts _ hlexes _ htiles ih =>
    cases htext with
    | last hword =>
      rcases htiles.exists_end with ⟨front, hfront, -⟩
      simp at hfront
    | @next _ _ word run text runs hword htext =>
      have hrun := hruns run (by simp)
      -- Behind the token comes its run, or nothing in front of the end.
      have hbehind : IsRun (run ++ text).head?.toList := by
        cases run with
        | cons c run => exact fun d hd => hrun d (by simp_all)
        | nil =>
          cases runs with
          | nil =>
            rw [htiles.nil_of_renders htext]
            simp [IsRun]
          | cons run' runs => exact absurd rfl (hne [] (by simp))
      have hne' : ∀ run' ∈ runs.dropLast, run' ≠ [] := by
        intro run' hmem
        refine hne run' ?_
        cases runs with
        | nil => simp at hmem
        | cons run'' runs => simp [hmem]
      rcases ih htext (fun run' hmem => hruns run' (by simp [hmem])) hne'
        (before' ++ gap ++ word) hrun with ⟨ts', htiles', hcontent⟩
      have hmoved := (hlexes.rewritten hword hbehind).move (lineAfter (before' ++ gap))
        (columnAfter (before' ++ gap))
      refine ⟨_, .next (.of_isRun hgap _) hmoved ⟨rfl, rfl⟩ htiles', ?_⟩
      rw [List.map_cons, List.map_cons, hcontent]
      rfl

/-- Tokens of a text, written out with runs of spaces and tabs between them, can be read again. Only
the last run, in front of the end of the input, may be empty. There is a text for all such runs, and
whichever it is, it is divided into tokens of the same kinds, texts and values. -/
theorem tokenize_rendered {source : String} {ts : List Token} (h : tokenize source = .ok ts)
    {runs : List (List Char)} (hlength : runs.length + 1 = ts.length)
    (hruns : ∀ run ∈ runs, IsRun run) (hne : ∀ run ∈ runs.dropLast, run ≠ []) :
    (∃ text, Renders runs ts text) ∧
      ∀ text, Renders runs ts text → ∃ ts', tokenize (String.ofList text) = .ok ts' ∧
        ts'.map Token.content = ts.map Token.content := by
  have htiles := tokenize_eq_ok_iff.mp h
  refine ⟨htiles.exists_renders hlength, fun text htext => ?_⟩
  have hnone : IsRun [] := by simp [IsRun]
  rcases htiles.rendered htext hruns hne [] hnone with ⟨ts', htiles', hcontent⟩
  refine ⟨ts', ?_, hcontent⟩
  rw [tokenize_eq_ok_iff, String.toList_ofList]
  exact htiles'

/-- Tokens without a blank between them: two of them are characters that start no token, and a
number ends in a point. -/
def denseText : String :=
  "if!x.==-1.??'\"'&"

/-- They can be written out with blanks between them, and read again. -/
theorem tokenize_rendered_denseText :
    ∃ ts text ts', tokenize denseText = .ok ts ∧
      Renders (List.replicate 10 [' ', '\t']) ts text ∧
      tokenize (String.ofList text) = .ok ts' ∧
      ts'.map Token.content = ts.map Token.content := by
  have hcount : (tokenize denseText).toOption.map (·.length) = some 11 := by
    decide +kernel
  cases h : tokenize denseText with
  | error fault =>
    rw [h] at hcount
    cases hcount
  | ok ts =>
    rw [h] at hcount
    have hlength : ts.length = 11 := Option.some.inj hcount
    have hblank : IsRun [' ', '\t'] := by
      intro c hc
      simpa using hc
    have hruns : ∀ run ∈ List.replicate 10 [' ', '\t'], IsRun run := by
      intro run hrun
      rw [List.eq_of_mem_replicate hrun]
      exact hblank
    rcases tokenize_rendered h (by rw [hlength, List.length_replicate]) hruns (by decide)
      with ⟨⟨text, htext⟩, hall⟩
    rcases hall text htext with ⟨ts', hread, hcontent⟩
    exact ⟨ts, text, ts', rfl, htext, hread, hcontent⟩

end ScriptCheck
