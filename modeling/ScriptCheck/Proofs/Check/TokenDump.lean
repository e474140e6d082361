import ScriptCheck.Proofs.Check.Files
import ScriptCheck.Proofs.Lexer.Numbers
import ScriptCheck.Proofs.Text.ReadingBack

/-!
# Dumps of tokens

The dump of the tokens of a text has one line for each of them, whatever they hold, and tells all of
them: two texts with the same dump are divided into the same tokens (`run_tokensOnly_faithful`). A
line gives the kind, the text and the place of its token. The value is not on it, but the kind and
the text determine it (`Token.denoted`).
-/

namespace ScriptCheck

open ScriptCheck.Text ScriptCheck.Lexeme

/-! ## Kinds -/

namespace Kind

variable {k l : Kind}

/-- Kinds of the language have different names. -/
theorem eq_of_name_eq (hk : k ∈ all) (hl : l ∈ all) (h : k.name = l.name) : k = l := by
  have hnodup : (all.map name).Nodup := by decide +kernel
  exact List.inj_on_of_nodup_map hnodup hk hl h

theorem not_mem_name (hk : k ∈ all) : '\t' ∉ k.name.toList ∧ '\n' ∉ k.name.toList := by
  have hall : ∀ k ∈ all, '\t' ∉ k.name.toList ∧ '\n' ∉ k.name.toList := by decide +kernel
  exact hall k hk

theorem mem_all (h : ∀ s, k ≠ .foreign s) : k ∈ all := by
  cases k with
  | foreign s => exact absurd rfl (h s)
  | keyword w => cases w <;> decide
  | operator op => cases op <;> decide
  | _ => decide

end Kind

/-! ## Values -/

/-- The value of a token of the given kind and text. -/
def Token.denoted (kind : Kind) (text : String) : Option Literal :=
  match kind with
  | .number => (numberValue { kind := .number, text }).toOption
  | .string => some (.text (String.ofList (unescape text.toList)))
  | _ => none

/-- Whether a token is of a kind of the language and has the value that its kind and its text call
for. -/
structure Token.IsDetermined (t : Token) : Prop where
  kind_mem : t.kind ∈ Kind.all
  literal_eq : t.literal = denoted t.kind t.text

theorem Token.denoted_ofWord (word text : String) : denoted (Kind.ofWord word) text = none := by
  rcases Kind.ofWord_cases word with h | ⟨w, h⟩ <;> rw [h] <;> rfl

/-- Tokens are made so. -/
theorem Lexes.isDetermined {span rest : List Char} {t : Token} (h : Lexes span rest t) :
    t.IsDetermined where
  kind_mem := by
    cases h with
    | word _ _ _ => exact Kind.mem_all fun _ => Kind.ofWord_ne (by simp) (by simp) _
    | _ => exact Kind.mem_all (by simp)
  literal_eq := by
    cases h with
    | word _ _ _ => exact (Token.denoted_ofWord _ _).symm
    | @integer c cs _ _ _ _ _ hdigits _ hvalue =>
      have hnumber : (Token.bareNumber 0 0 (c :: cs)).numberValue = _ :=
        Token.numberValue_integer hdigits
      rw [hvalue] at hnumber
      exact (congrArg Except.toOption hnumber).symm
    | @real c cs fraction _ _ _ _ _ _ _ _ hvalue =>
      have hnumber : (Token.bareNumber 0 0 (c :: cs ++ '.' :: fraction)).numberValue = _ :=
        Token.numberValue_real
      rw [List.cons_append, hvalue] at hnumber
      exact (congrArg Except.toOption hnumber).symm
    | string _ _ => rw [Token.denoted, String.toList_ofList]
    | _ => rfl

theorem isDetermined_of_tokenize {source : String} {tokens : List Token}
    (h : tokenize source = .ok tokens) : ∀ t ∈ tokens, t.IsDetermined := by
  rcases (tokenize_eq_ok_iff.mp h).exists_end with ⟨front, rfl, hfront⟩
  intro t ht
  rcases List.mem_append.mp ht with ht | ht
  · rcases hfront t ht with ⟨span, rest, hlexes⟩
    exact hlexes.isDetermined
  · rw [List.mem_singleton.mp ht]
    exact ⟨Kind.mem_all (by simp [Token.endBehind]), rfl⟩

namespace Check

variable {t u : Token}

/-! ## Lines -/

/-- The place of a token in a dump. -/
def tokenPlace (t : Token) : List Char :=
  [':'].intercalate [(toString t.line).toList, (toString t.column).toList]

/-- What is on the line of a token, from tab to tab. -/
def tokenColumns (t : Token) : List (List Char) :=
  [tokenPlace t, t.kind.name.toList, (quoted t.text).toList]

theorem toList_tokenLine (t : Token) :
    (tokenLine t).toList = ['\t'].intercalate (tokenColumns t) := by
  simp [tokenLine, tokenColumns, tokenPlace, List.intercalate]

/-- There is no other line break on the line of a token than the one at its end. -/
theorem newline_not_mem_tokenLine (ht : t.IsDetermined) : '\n' ∉ (tokenLine t).toList := by
  have hinteger := not_mem_toString (c := '\n') rfl
  have hname := (Kind.not_mem_name ht.kind_mem).2
  have htext := not_mem_quoted (c := '\n') rfl t.text
  simp [tokenLine, -Int.toString_eq_repr, hinteger, hname, htext]

theorem tab_not_mem_tokenColumns (ht : t.IsDetermined) :
    ∀ column ∈ tokenColumns t, '\t' ∉ column := by
  have hinteger := not_mem_toString (c := '\t') rfl
  have hplace : '\t' ∉ tokenPlace t := by
    simp [tokenPlace, List.intercalate, -Int.toString_eq_repr, hinteger]
  have hname := (Kind.not_mem_name ht.kind_mem).1
  have htext := not_mem_quoted (c := '\t') rfl t.text
  simp [tokenColumns, hplace, hname, htext]

theorem eq_of_tokenPlace_eq (h : tokenPlace t = tokenPlace u) :
    t.line = u.line ∧ t.column = u.column := by
  have hparts : ∀ t : Token,
      ∀ part ∈ [(toString t.line).toList, (toString t.column).toList], ':' ∉ part := by
    intro t part hpart
    rcases List.mem_pair.mp hpart with rfl | rfl <;> exact not_mem_toString rfl _
  have hrow := intercalate_inj (hparts t) (hparts u) (by simp) (by simp) h
  simp only [List.cons.injEq, and_true, String.toList_inj] at hrow
  exact ⟨Int.repr_inj.mp hrow.1, Int.repr_inj.mp hrow.2⟩

/-- The line of a token tells it from every other one. -/
theorem eq_of_tokenLine_eq (ht : t.IsDetermined) (hu : u.IsDetermined)
    (h : tokenLine t = tokenLine u) : t = u := by
  have hlines := congrArg String.toList h
  rw [toList_tokenLine, toList_tokenLine] at hlines
  have hcolumns := intercalate_inj (tab_not_mem_tokenColumns ht) (tab_not_mem_tokenColumns hu)
    (by simp [tokenColumns]) (by simp [tokenColumns]) hlines
  simp only [tokenColumns, List.cons.injEq, and_true, String.toList_inj] at hcolumns
  rcases hcolumns with ⟨hplace, hname, htext⟩
  rcases eq_of_tokenPlace_eq hplace with ⟨hline, hcolumn⟩
  have hkind := Kind.eq_of_name_eq ht.kind_mem hu.kind_mem hname
  have htext := quoted_injective htext
  -- The values are not on the lines, so they come from what is.
  have hliteral : t.literal = u.literal := by rw [ht.literal_eq, hu.literal_eq, hkind, htext]
  cases t
  cases u
  simp_all

/-! ## Dumps -/

/-- A text of lines is a row whose last entry, behind all lines, is empty. -/
theorem toList_joinLines (lines : List String) :
    (joinLines lines).toList = ['\n'].intercalate (lines.map String.toList ++ [[]]) := by
  induction lines with
  | nil => rfl
  | cons line lines ih =>
    have hcons : joinLines (line :: lines) = line ++ "\n" ++ joinLines lines := by
      rw [joinLines, List.map_cons, String.join_cons, joinLines]
    rw [hcons, String.toList_append, String.toList_append, ih]
    cases lines <;> simp [List.intercalate]

/-- The lines of a text of lines, and what is behind the last of them. -/
theorem splitOn_joinLines {lines : List String} (h : ∀ line ∈ lines, '\n' ∉ line.toList) :
    (joinLines lines).toList.splitOn '\n' = lines.map String.toList ++ [[]] := by
  rw [toList_joinLines]
  refine List.splitOn_intercalate _ ?_ (by simp)
  intro entry hentry
  rcases List.mem_append.mp hentry with hentry | hentry
  · rcases List.mem_map.mp hentry with ⟨line, hline, rfl⟩
    exact h line hline
  · simp [List.mem_singleton.mp hentry]

theorem newline_not_mem_tokenDump {tokens : List Token} (h : ∀ t ∈ tokens, t.IsDetermined) :
    ∀ line ∈ tokenDump tokens, '\n' ∉ line.toList := by
  intro line hline
  rcases List.mem_cons.mp hline with rfl | hline
  · decide
  · rcases List.mem_map.mp hline with ⟨t, ht, rfl⟩
    exact newline_not_mem_tokenLine (h t ht)

/-- Tokens with the same lines are the same. -/
theorem eq_of_map_tokenLine_eq {tokens tokens' : List Token} (h : ∀ t ∈ tokens, t.IsDetermined)
    (h' : ∀ t ∈ tokens', t.IsDetermined) (heq : tokens.map tokenLine = tokens'.map tokenLine) :
    tokens = tokens' := by
  induction tokens generalizing tokens' with
  | nil => exact (List.map_eq_nil_iff.mp heq.symm).symm
  | cons t tokens ih =>
    cases tokens' with
    | nil => simp at heq
    | cons u tokens' =>
      rcases List.forall_mem_cons.mp h with ⟨ht, htokens⟩
      rcases List.forall_mem_cons.mp h' with ⟨hu, htokens'⟩
      rcases List.cons.inj heq with ⟨hline, hlines⟩
      rw [eq_of_tokenLine_eq ht hu hline, ih htokens htokens' hlines]

/-! ## Jobs -/

variable {job : Job} {load : String → Except Source.Fault (List Nat)} {text : String}
  {tokens : List Token}

/-- What a job checks: the text that it is given, or the one that the file at the path that it is
given holds. -/
inductive Reads (load : String → Except Source.Fault (List Nat)) (job : Job) : String → Prop where
  | text : job.isText = true → Reads load job job.source
  | file {bytes : List Nat} {text : String} :
      job.isText = false → job.source.endsWith Source.suffix = true →
      load job.source = .ok bytes → Source.textOfBytes bytes = .ok text → Reads load job text

section

variable [Stack]

theorem Reads.exists_run_eq (h : Reads load job text) :
    ∃ notes, run job load = ofText job text notes := by
  cases h with
  | text htext => exact ⟨[], by rw [run, if_pos htext]⟩
  | file hfile hpath hload htext =>
    cases job
    obtain rfl := hfile
    exact ⟨_, run_fileJob hpath hload htext _ _ _⟩

/-- Whether the tokens of a text are all that a job is to show. -/
def ShowsTokensOnly (job : Job) : Prop :=
  job.dumpTokens = true ∧ job.dumpTree = false

theorem Reads.lines_eq (hreads : Reads load job text) (honly : ShowsTokensOnly job)
    (h : tokenize text = .ok tokens) : (run job load).lines = tokenDump tokens := by
  rcases hreads.exists_run_eq with ⟨notes, hrun⟩
  rw [hrun, ofText, h]
  dsimp only
  rw [honly.1, honly.2]
  rfl

/-- Dumps of tokens are faithful. Where only the tokens of a text are shown, the output is a head
and one line for each token, and nothing else is behind the last line break. If the outputs for two
texts are equal, so are all tokens, with the values that are not shown. -/
theorem run_tokensOnly_faithful {job' : Job}
    {load' : String → Except Source.Fault (List Nat)} {text' : String} {tokens' : List Token}
    (hreads : Reads load job text) (hreads' : Reads load' job' text')
    (honly : ShowsTokensOnly job) (honly' : ShowsTokensOnly job')
    (h : tokenize text = .ok tokens) (h' : tokenize text' = .ok tokens') :
    (run job load).output.toList.splitOn '\n' =
        ("== TOKENS ==" :: tokens.map tokenLine).map String.toList ++ [[]] ∧
      ((run job load).output = (run job' load').output → tokens = tokens') := by
  have hdetermined := isDetermined_of_tokenize h
  have hdetermined' := isDetermined_of_tokenize h'
  have hsplit := splitOn_joinLines (newline_not_mem_tokenDump hdetermined)
  have hsplit' := splitOn_joinLines (newline_not_mem_tokenDump hdetermined')
  rw [Report.output, Report.output, hreads.lines_eq honly h, hreads'.lines_eq honly' h']
  refine ⟨hsplit, fun heq => ?_⟩
  rw [heq, hsplit'] at hsplit
  have hlines := List.map_injective_iff.mpr (fun _ _ => String.toList_inj.mp)
    (List.append_cancel_right hsplit)
  exact (eq_of_map_tokenLine_eq hdetermined' hdetermined (List.cons.inj hlines).2).symm

end

/-- A name and a string that holds a tab and a newline, with a blank between them and a comment
behind. -/
def spacedText : String :=
  "a '\t\n' # b"

/-- The same with another blank and another comment. -/
def tabbedText : String :=
  "a\t'\t\n' # c"

/-- Their dumps are the same, with four lines, so their tokens are. -/
theorem run_tokensOnly_faithful_comments :
    ∃ tokens tokens', tokenize spacedText = .ok tokens ∧ tokenize tabbedText = .ok tokens' ∧
      tokens = tokens' ∧ tokens.length = 3 ∧
      ((run (textJob spacedText true false false) fun _ => .ok []).output.toList.splitOn
        '\n').length = 5 := by
  have hlength : (tokenize spacedText).toOption.map (·.length) = some 3 := by decide +kernel
  have hsome : (tokenize tabbedText).toOption.isSome = true := by decide +kernel
  have houtput : (run (textJob spacedText true false false) fun _ => .ok []).output =
      (run (fileJob "a.qt" true false true) fun _ =>
        .ok (tabbedText.toList.map Char.toNat)).output := by
    decide +kernel
  cases h : tokenize spacedText with
  | error fault =>
    rw [h] at hlength
    cases hlength
  | ok tokens =>
    cases h' : tokenize tabbedText with
    | error fault =>
      rw [h'] at hsome
      cases hsome
    | ok tokens' =>
      rw [h] at hlength
      have hlength : tokens.length = 3 := Option.some.inj hlength
      have hgiven : Reads (fun _ => .ok []) (textJob spacedText true false false) spacedText :=
        .text rfl
      have hreads : Reads (fun _ => .ok (tabbedText.toList.map Char.toNat))
          (fileJob "a.qt" true false true) tabbedText :=
        .file rfl (by decide +kernel) rfl (by decide +kernel)
      rcases run_tokensOnly_faithful hgiven hreads ⟨rfl, rfl⟩ ⟨rfl, rfl⟩ h h'
        with ⟨hlines, hsame⟩
      refine ⟨tokens, tokens', rfl, rfl, hsame houtput, hlength, ?_⟩
      rw [hlines]
      simp [hlength]

end Check

end ScriptCheck
