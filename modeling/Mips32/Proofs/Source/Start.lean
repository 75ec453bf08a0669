import Mips32.Program.Symbols
import Mips32.Proofs.Source.Identifier

/-!
# Where a statement starts

The label in front of a statement is split off twice: where its line is classified, so that the
label gets a symbol, and where the line is cut into tokens. `StartsWith` says that the two agree. A
label was recorded exactly if one can be matched in front, and the tokens are the longest stretches
without blanks and commas in the very text that the classification left, so that no label is a token
as well and none is lost. `startsWith_of_classify` says this of every instruction line, whatever
characters are in it.

A label is matched by its form alone (`Line.Labelled`), and there may be several ways to tell the
blanks behind its colon from what follows them. As the line is trimmed first, all of them leave the
same text (`Line.splitLabel?_trim_iff`).
-/

namespace Mips32

namespace Line

/-! ## Labels by their form -/

/-- A text with a label in front: an identifier, a colon, blanks or none, and something in one
line. -/
inductive Labelled : Text → Identifier → Text → Prop
  | mk {n : Identifier} {blanks rest : Text} (hblanks : ∀ c ∈ blanks, Text.isBlank c = true)
      (hne : rest ≠ []) (hline : .char '\n' ∉ rest) :
      Labelled (n.text ++ .char ':' :: (blanks ++ rest)) n rest

/-- A stretch at the end of a trimmed text has blanks in front only. -/
theorem trimStart_of_trim_eq_append {line front rest : Text} (h : Text.trim line = front ++ rest) :
    Text.trimStart rest = Text.trim rest := by
  have hend : Text.trimEnd rest = rest :=
    Text.trimEnd_eq_self fun _ => Text.not_isBlank_of_trim_eq_append h
  rw [← Text.trimStart_trimEnd, hend]

/-- A label is split off a trimmed line exactly if one is there by its form, and what is left is the
rest, trimmed. -/
theorem splitLabel?_trim_iff {line name body : Text} :
    splitLabel? (Text.trim line) = some (name, body) ↔ ∃ (n : Identifier) (rest : Text),
      n.text = name ∧ Labelled (Text.trim line) n rest ∧ Text.trim rest = body := by
  rw [splitLabel?_eq_some_iff]
  constructor
  · rintro ⟨n, r, hname, hline, rfl, hne, hfeed⟩
    have hend : Text.trim line = n.text ++ [.char ':'] ++ r := by simp [hline]
    have hr : r.takeWhile Text.isBlank ++ Text.trimStart r = r := List.takeWhile_append_dropWhile
    have hblanks : ∀ c ∈ r.takeWhile Text.isBlank, Text.isBlank c = true :=
      List.all_eq_true.1 List.all_takeWhile
    have hlabelled := Labelled.mk (n := n) hblanks hne hfeed
    rw [hr, ← hline] at hlabelled
    refine ⟨n, Text.trimStart r, hname, hlabelled, ?_⟩
    rw [trimStart_of_trim_eq_append hend, Text.trim_trim]
  · rintro ⟨n, rest, hname, hlabelled, rfl⟩
    generalize hs : Text.trim line = s at hlabelled
    obtain @⟨_, blanks, _, hblanks, hne, hfeed⟩ := hlabelled
    have hend : Text.trim line = n.text ++ [.char ':'] ++ (blanks ++ rest) := by simp [hs]
    have hend' : Text.trim line = n.text ++ .char ':' :: blanks ++ rest := by simp [hs]
    have hlast := List.getLast?_eq_some_getLast hne
    refine ⟨n, blanks ++ rest, hname, rfl, ?_, ?_, fun hc => ?_⟩
    · rw [trimStart_of_trim_eq_append hend, Text.trim_append_left hblanks]
    · exact Text.trim_ne_nil (List.mem_of_getLast? hlast)
        (Text.not_isBlank_of_trim_eq_append hend' hlast)
    · exact hfeed ((Text.trim_isInfix rest).subset hc)

end Line

namespace Statement

/-! ## Two readings of a line -/

/-- Cutting a line fails with a fault of a class and a wording. -/
def FailsWith (line : Text) (kind : Fault.Kind) (message : Text) : Prop :=
  ∃ fault, parse line = .error fault ∧ fault.kind = kind ∧ fault.message = message

/-- A line is cut from the body that its classification has left behind a label, if it has one. -/
structure StartsWith (line : Text) (name? : Option Text) (body : Text) : Prop where
  /-- There is one way to tell the tokens of the body. -/
  tokens : ∃ tokens, ∀ ts, Text.Cut isSeparator body ts ↔ ts = tokens
  /-- Without a token the statement is empty. -/
  empty : FailsWith line .malformedOperand "Empty instruction".text ↔
    Text.Cut isSeparator body []
  /-- There is no token exactly if the body is commas, with nothing but blanks between them. -/
  commas : Text.Cut isSeparator body [] ↔
    body.head? = some (.char ',') ∧ ∀ c ∈ body, c = ',' ∨ Text.isBlank c = true
  /-- A first token that is no name of an operation is named in the fault. -/
  unsupported : ∀ token, FailsWith line .unsupportedInstruction
      ("This instruction is not supported: '".text ++ token ++ [.char '\'']) ↔
    ∃ operands, Text.Cut isSeparator body (token :: operands) ∧
      ∀ m : Mnemonic, Text.lower token ≠ m.name
  /-- A first token that is one comes with the others as operands. -/
  parsed : ∀ m operands, parse line = .ok ⟨m, operands⟩ ↔
    ∃ token, Text.Cut isSeparator body (token :: operands) ∧ Text.lower token = m.name
  /-- A label is recorded exactly if it stands in front by its form. -/
  labelled : ∀ name, name? = some name ↔
    ∃ (n : Identifier) (rest : Text), n.text = name ∧ Line.Labelled (Text.trim line) n rest
  /-- Of such a line nothing but the label is dropped. -/
  behind : ∀ n rest, Line.Labelled (Text.trim line) n rest → Text.trim rest = body
  /-- Without a label nothing of the line is dropped. -/
  bare : name? = none ↔ body = Text.trim line
  /-- The recorded label is what the line adds to the symbols. -/
  defined : ∀ number a table table', SourceLine.define ⟨number, line⟩ a table = .ok table' →
    table' = table ++ name?.toList.map (·, a)

variable {line body : Text} {name? : Option Text}

/-- An instruction line has something in it, and its label and its body are those that the cutting
finds. -/
theorem split_of_classify (h : Line.classify line = .instruction name? body) :
    Text.trim line ≠ [] ∧ (Line.splitLabel? (Text.trim line)).map Prod.fst = name? ∧
      bodyOf line = body := by
  have hinstruction : (Line.classify line).isInstruction = true := by rw [h]; rfl
  obtain ⟨hne, hkind⟩ := Line.classify_eq_ofBody_of_isInstruction hinstruction
  have hlabel := congrArg Line.label? hkind
  have hbody := congrArg Line.body hkind
  rw [h, Line.label?_ofBody] at hlabel
  rw [h, Line.body_ofBody] at hbody
  exact ⟨hne, hlabel.symm, hbody.symm⟩

theorem bodyOf_of_splitLabel? {name rest : Text}
    (h : Line.splitLabel? (Text.trim line) = some (name, rest)) : bodyOf line = rest := by
  unfold bodyOf
  simp only [h]

theorem bodyOf_of_splitLabel?_eq_none (h : Line.splitLabel? (Text.trim line) = none) :
    bodyOf line = Text.trim line := by
  unfold bodyOf
  simp only [h]

/-! ### Tokens -/

theorem parse_eq_error_iff {fault : Fault} : parse line = .error fault ↔
    Text.Cut isSeparator (bodyOf line) [] ∧ fault = .emptyInstruction ∨
      ∃ token operands, Text.Cut isSeparator (bodyOf line) (token :: operands) ∧
        (∀ m : Mnemonic, Text.lower token ≠ m.name) ∧ fault = .unsupported token := by
  simp only [parse, ofTokens_eq_error_iff, Text.cut_iff]

theorem failsWith_emptyInstruction_iff :
    FailsWith line .malformedOperand "Empty instruction".text ↔
      Text.Cut isSeparator (bodyOf line) [] := by
  constructor
  · rintro ⟨fault, h, hkind, -⟩
    rcases parse_eq_error_iff.1 h with ⟨hcut, -⟩ | ⟨_, _, -, -, rfl⟩
    · exact hcut
    · cases hkind
  · intro h
    exact ⟨.emptyInstruction, parse_eq_error_iff.2 (.inl ⟨h, rfl⟩), rfl, rfl⟩

theorem failsWith_unsupported_iff {token : Text} :
    FailsWith line .unsupportedInstruction
        ("This instruction is not supported: '".text ++ token ++ [.char '\'']) ↔
      ∃ operands, Text.Cut isSeparator (bodyOf line) (token :: operands) ∧
        ∀ m : Mnemonic, Text.lower token ≠ m.name := by
  constructor
  · rintro ⟨fault, h, hkind, hmessage⟩
    rcases parse_eq_error_iff.1 h with ⟨-, rfl⟩ | ⟨token', operands, hcut, hno, rfl⟩
    · cases hkind
    · obtain rfl : token' = token :=
        List.append_cancel_left (List.append_cancel_right hmessage)
      exact ⟨operands, hcut, hno⟩
  · rintro ⟨operands, hcut, hno⟩
    exact ⟨.unsupported token, parse_eq_error_iff.2 (.inr ⟨token, operands, hcut, hno, rfl⟩), rfl,
      rfl⟩

/-- Only commas with blanks between them have no token in them, if something stands at the front
that is no blank. -/
theorem cut_nil_iff_commas (hhead : ∃ c, body.head? = some c ∧ Text.isBlank c = false) :
    Text.Cut isSeparator body [] ↔
      body.head? = some (.char ',') ∧ ∀ c ∈ body, c = ',' ∨ Text.isBlank c = true := by
  have hseparator : ∀ c, isSeparator c = true ↔ c = ',' ∨ Text.isBlank c = true := by
    intro c
    rw [isSeparator, Bool.or_eq_true, beq_iff_eq, or_comm]
  rw [Text.cut_iff, Text.runs_eq_nil_iff]
  simp only [hseparator]
  refine ⟨fun h => ⟨?_, h⟩, And.right⟩
  obtain ⟨c, hc, hblank⟩ := hhead
  obtain rfl | hc' := h c (List.mem_of_head? hc)
  · exact hc
  · rw [hblank] at hc'
    cases hc'

/-! ### Labels -/

/-- The body of an instruction line does not begin with a blank. -/
theorem head?_body_of_classify (h : Line.classify line = .instruction name? body) :
    ∃ c, body.head? = some c ∧ Text.isBlank c = false := by
  obtain ⟨hne, -, hbody⟩ := split_of_classify h
  have htrim : ∃ t, Text.trim t = body ∧ body ≠ [] := by
    cases hsplit : Line.splitLabel? (Text.trim line) with
    | none =>
      rw [bodyOf_of_splitLabel?_eq_none hsplit] at hbody
      exact ⟨line, hbody, hbody ▸ hne⟩
    | some found =>
      obtain ⟨name, rest⟩ := found
      rw [bodyOf_of_splitLabel? hsplit] at hbody
      obtain rfl := hbody
      obtain ⟨-, -, -, -, -, hrest, -⟩ := Line.splitLabel?_eq_some_iff.1 hsplit
      obtain ⟨-, t, -, -, ht⟩ := Line.splitLabel?_trim_iff.1 hsplit
      exact ⟨t, ht, hrest⟩
  obtain ⟨t, rfl, hsome⟩ := htrim
  obtain ⟨c, r, hcons⟩ := List.exists_cons_of_ne_nil hsome
  have hhead : (Text.trim t).head? = some c := by rw [hcons]; rfl
  exact ⟨c, hhead, Text.not_isBlank_of_head?_trim hhead⟩

theorem labelled_iff_of_classify (h : Line.classify line = .instruction name? body) (name : Text) :
    name? = some name ↔
      ∃ (n : Identifier) (rest : Text), n.text = name ∧ Line.Labelled (Text.trim line) n rest := by
  obtain ⟨-, hname, -⟩ := split_of_classify h
  rw [← hname]
  constructor
  · intro hsome
    obtain ⟨⟨name, rest⟩, hsplit, rfl⟩ := Option.map_eq_some_iff.1 hsome
    obtain ⟨n, rest, hn, hlabelled, -⟩ := Line.splitLabel?_trim_iff.1 hsplit
    exact ⟨n, rest, hn, hlabelled⟩
  · rintro ⟨n, rest, rfl, hlabelled⟩
    rw [Line.splitLabel?_trim_iff.2 ⟨n, rest, rfl, hlabelled, rfl⟩]
    rfl

theorem bodyOf_of_labelled {n : Identifier} {rest : Text}
    (h : Line.Labelled (Text.trim line) n rest) : bodyOf line = Text.trim rest :=
  bodyOf_of_splitLabel? (Line.splitLabel?_trim_iff.2 ⟨n, rest, rfl, h, rfl⟩)

theorem bare_iff_of_classify (h : Line.classify line = .instruction name? body) :
    name? = none ↔ body = Text.trim line := by
  obtain ⟨-, hname, hbody⟩ := split_of_classify h
  rw [← hname, ← hbody, Option.map_eq_none_iff]
  constructor
  · exact bodyOf_of_splitLabel?_eq_none
  · intro hwhole
    rw [Option.eq_none_iff_forall_ne_some]
    rintro ⟨name, rest⟩ hsplit
    rw [bodyOf_of_splitLabel? hsplit] at hwhole
    obtain ⟨n, r, -, hline, rfl, -⟩ := Line.splitLabel?_eq_some_iff.1 hsplit
    -- The label would have no characters, and not even its colon.
    have hlength := congrArg List.length (hwhole.trans hline)
    have hrest : (Text.trimStart r).length ≤ r.length := (List.dropWhile_suffix _).length_le
    rw [List.length_append, List.length_cons] at hlength
    omega

end Statement

/-- A line adds its label to the symbols, if it has one, and nothing else. -/
theorem SourceLine.eq_of_define {l : SourceLine} {a : Int} {table table' : SymbolTable}
    (h : l.define a table = .ok table') : table' = table ++ l.kind.label?.toList.map (·, a) := by
  unfold define at h
  split at h
  case h_1 hnone =>
    cases h
    simp [hnone]
  case h_2 name hname =>
    split at h
    case isTrue => cases h
    case isFalse =>
      split at h
      case isTrue => cases h
      case isFalse =>
        cases h
        simp [hname]

/-- An instruction line is cut from the body that its classification left, and the label that was
recorded is the one that is not cut. -/
theorem Statement.startsWith_of_classify {line body : Text} {name? : Option Text}
    (h : Line.classify line = .instruction name? body) : StartsWith line name? body := by
  obtain ⟨-, -, rfl⟩ := split_of_classify h
  exact {
    tokens := ⟨_, fun _ => Text.cut_iff.trans eq_comm⟩
    empty := failsWith_emptyInstruction_iff
    commas := cut_nil_iff_commas (head?_body_of_classify h)
    unsupported := fun _ => failsWith_unsupported_iff
    parsed := fun m operands => by
      simp only [parse_eq_ok_iff, SpelledBy, Text.cut_iff]
    labelled := labelled_iff_of_classify h
    behind := fun _ _ hlabelled => (bodyOf_of_labelled hlabelled).symm
    bare := bare_iff_of_classify h
    defined := fun number a table table' hdefine => by
      have hlabel : (⟨number, line⟩ : SourceLine).kind.label? = name? := by
        rw [SourceLine.kind, h]
        rfl
      rw [SourceLine.eq_of_define hdefine, hlabel] }

/-- A line with blanks other than spaces, with colons and commas at every place where they do not
belong, and with a line feed in front. -/
def Statement.crowdedLine : Text :=
  "\n\u2003_x.1:\u00a0,SLL $1;,a:b:,\u3000,".text

/-- Only the first colon of the line ends a label. -/
theorem Statement.startsWith_crowdedLine :
    Line.classify crowdedLine =
        .instruction (some "_x.1".text) ",SLL $1;,a:b:,\u3000,".text ∧
      StartsWith crowdedLine (some "_x.1".text) ",SLL $1;,a:b:,\u3000,".text := by
  have h : Line.classify crowdedLine =
      .instruction (some "_x.1".text) ",SLL $1;,a:b:,\u3000,".text := by rfl
  exact ⟨h, startsWith_of_classify h⟩

end Mips32
