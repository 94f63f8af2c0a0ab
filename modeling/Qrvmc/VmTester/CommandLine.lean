import Qrvmc.VmTester.CliParser

/-! Which command lines the VM tester accepts. An argument is read as a positional one,
as one of two options, or not at all, and the loop gathers what it has read. -/
namespace Qrvmc.VmTester

/-- Not empty and not starting with a dash. -/
def isPositional : List CChar → Bool
  | [] => false
  | h :: _ => h != chr '-'

/-- A word behind exactly one or two dashes. -/
def isDashed (word arg : List CChar) : Bool := arg == lit "-" ++ word || arg == lit "--" ++ word

def isOption (arg : List CChar) : Bool :=
  isDashed (lit "help") arg || isDashed (lit "version") arg

def positionals (args : List (List CChar)) : List (List CChar) := args.filter isPositional

theorem findFirstNotOf_eq_zero_iff (arg : List CChar) :
    findFirstNotOf arg (chr '-') = 0 ↔ isPositional arg = true := by
  cases arg with
  | nil => decide
  | cons h rest =>
      by_cases hDash : h = chr '-'
      · subst hDash
        cases hFind : rest.findIdx? fun c => c != chr '-' <;>
          simp [findFirstNotOf, isPositional, List.findIdx?_cons, hFind, npos]
      · simp [findFirstNotOf, isPositional, List.findIdx?_cons, hDash]

/-- The first character that is no dash is found behind the dashes. -/
theorem findFirstNotOf_dashes {h : CChar} (hDash : h ≠ chr '-') (dashes : Nat)
    (rest : List CChar) :
    findFirstNotOf (List.replicate dashes (chr '-') ++ h :: rest) (chr '-') = dashes := by
  have hFind : (List.replicate dashes (chr '-') ++ h :: rest).findIdx? (fun c => c != chr '-') =
      some dashes := by
    induction dashes with
    | zero => simp [List.findIdx?_cons, hDash]
    | succ dashes ih => simp [List.replicate_succ, List.findIdx?_cons, ih]
  rw [findFirstNotOf, hFind]
  rfl

/-- What stands before the position found is dashes. -/
theorem dashes_append_drop {arg : List CChar} (hFound : findFirstNotOf arg (chr '-') ≤ 2) :
    List.replicate (findFirstNotOf arg (chr '-')) (chr '-') ++
      arg.drop (findFirstNotOf arg (chr '-')) = arg := by
  cases hFind : arg.findIdx? fun c => c != chr '-' with
  | none =>
      rw [findFirstNotOf, hFind] at hFound
      exact absurd hFound (by decide)
  | some dashes =>
      have hDashes : findFirstNotOf arg (chr '-') = dashes := by
        rw [findFirstNotOf, hFind]
        rfl
      rw [hDashes]
      clear hFound hDashes
      induction arg generalizing dashes with
      | nil => simp at hFind
      | cons h rest ih =>
          rw [List.findIdx?_cons] at hFind
          by_cases hDash : h = chr '-'
          · subst hDash
            simp only [bne_self_eq_false, Bool.false_eq_true, ↓reduceIte, Option.map_eq_some_iff]
              at hFind
            obtain ⟨before, hBefore, rfl⟩ := hFind
            rw [List.replicate_succ, List.cons_append, List.drop_succ_cons, ih before hBefore]
          · simp only [bne_iff_ne, ne_eq, hDash, not_false_eq_true, ↓reduceIte,
              Option.some.injEq] at hFind
            subst hFind
            rfl

/-- A word that is left over behind one or two dashes. -/
theorem isDashed_iff {h : CChar} (hDash : h ≠ chr '-') (word arg : List CChar) :
    isDashed (h :: word) arg = true ↔
      findFirstNotOf arg (chr '-') ≠ 0 ∧ findFirstNotOf arg (chr '-') ≤ 2 ∧
        arg.drop (findFirstNotOf arg (chr '-')) = h :: word := by
  simp only [isDashed, Bool.or_eq_true, beq_iff_eq]
  constructor
  · rintro (rfl | rfl)
    · have hFound : findFirstNotOf (lit "-" ++ h :: word) (chr '-') = 1 :=
        findFirstNotOf_dashes hDash 1 word
      rw [hFound]
      exact ⟨by decide, by decide, rfl⟩
    · have hFound : findFirstNotOf (lit "--" ++ h :: word) (chr '-') = 2 :=
        findFirstNotOf_dashes hDash 2 word
      rw [hFound]
      exact ⟨by decide, by decide, rfl⟩
  · rintro ⟨hSome, hFew, hRest⟩
    have hArg := dashes_append_drop hFew
    rw [hRest] at hArg
    have hCount : findFirstNotOf arg (chr '-') = 1 ∨ findFirstNotOf arg (chr '-') = 2 := by omega
    rcases hCount with hCount | hCount
    · left
      rw [← hArg, hCount]
      rfl
    · right
      rw [← hArg, hCount]
      rfl

theorem isPositional_of_isDashed {word arg : List CChar} (h : isDashed word arg = true) :
    isPositional arg = false := by
  simp only [isDashed, Bool.or_eq_true, beq_iff_eq] at h
  rcases h with rfl | rfl <;> rfl

theorem isPositional_of_isOption {arg : List CChar} (h : isOption arg = true) :
    isPositional arg = false := by
  rcases Bool.or_eq_true_iff.mp h with hHelp | hVersion
  · exact isPositional_of_isDashed hHelp
  · exact isPositional_of_isDashed hVersion

/-- One argument of the loop, by what it is read as. -/
theorem parseLoop_cons (namesCount : Nat) (arg : List CChar) (rest : List (List CChar))
    (state : ParseState) :
    parseLoop namesCount (arg :: rest) state =
      if isPositional arg then
        if state.numArgs + 1 > namesCount then
          ({ state with numArgs := state.numArgs + 1 }, some (unexpectedArgument arg))
        else parseLoop namesCount rest
          { state with numArgs := state.numArgs + 1, arguments := state.arguments ++ [arg] }
      else if isDashed (lit "version") arg then
        parseLoop namesCount rest { state with version := true }
      else if isDashed (lit "help") arg then
        parseLoop namesCount rest { state with help := true }
      else (state, some (unknownOption arg)) := by
  have hVersion : isDashed (lit "version") arg = true ↔ _ :=
    isDashed_iff (by decide : chr 'v' ≠ chr '-') (lit "ersion") arg
  have hHelp : isDashed (lit "help") arg = true ↔ _ :=
    isDashed_iff (by decide : chr 'h' ≠ chr '-') (lit "elp") arg
  rw [parseLoop]
  simp only [hVersion, hHelp, ← findFirstNotOf_eq_zero_iff]
  by_cases hFirst : findFirstNotOf arg (chr '-') = 0
  · simp only [hFirst, ↓reduceIte]
  · by_cases hFew : findFirstNotOf arg (chr '-') ≤ 2
    · simp only [hFirst, hFew, ↓reduceIte, ne_eq, not_false_eq_true, true_and]
      rfl
    · simp only [hFirst, hFew, ↓reduceIte, ne_eq, not_false_eq_true, false_and, and_false]

/-- The variables once arguments have been read that are all known and have room. -/
def ParseState.after (state : ParseState) (args : List (List CChar)) : ParseState where
  help := state.help || args.any (isDashed (lit "help"))
  version := state.version || args.any (isDashed (lit "version"))
  numArgs := state.numArgs + (positionals args).length
  arguments := state.arguments ++ positionals args

theorem ParseState.after_positional (state : ParseState) {arg : List CChar}
    (rest : List (List CChar)) (h : isPositional arg = true) :
    { state with numArgs := state.numArgs + 1,
                 arguments := state.arguments ++ [arg] : ParseState }.after rest =
      state.after (arg :: rest) := by
  have hDashed (word : List CChar) : isDashed word arg = false := by
    cases hWord : isDashed word arg with
    | false => rfl
    | true => simp [isPositional_of_isDashed hWord] at h
  simp [ParseState.after, positionals, h, hDashed, Nat.add_assoc, Nat.add_comm 1]

theorem ParseState.after_version (state : ParseState) {arg : List CChar}
    (rest : List (List CChar)) (h : isDashed (lit "version") arg = true) :
    { state with version := true : ParseState }.after rest = state.after (arg :: rest) := by
  have hHelp : isDashed (lit "help") arg = false := by
    simp only [isDashed, Bool.or_eq_true, beq_iff_eq] at h
    rcases h with rfl | rfl <;> decide
  simp [ParseState.after, positionals, h, hHelp, isPositional_of_isDashed h]

theorem ParseState.after_help (state : ParseState) {arg : List CChar}
    (rest : List (List CChar)) (h : isDashed (lit "help") arg = true)
    (hVersion : isDashed (lit "version") arg = false) :
    { state with help := true : ParseState }.after rest = state.after (arg :: rest) := by
  simp [ParseState.after, positionals, h, hVersion, isPositional_of_isDashed h]

/-- Known arguments with room for the positional ones are read to the end. -/
theorem parseLoop_accepts {namesCount : Nat} {args : List (List CChar)} {state : ParseState}
    (hKnown : ∀ arg ∈ args, isPositional arg = true ∨ isOption arg = true)
    (hRoom : state.numArgs + (positionals args).length ≤ namesCount) :
    parseLoop namesCount args state = (state.after args, none) := by
  induction args generalizing state with
  | nil => simp [parseLoop, ParseState.after, positionals]
  | cons arg rest ih =>
      have hRest : ∀ arg ∈ rest, isPositional arg = true ∨ isOption arg = true :=
        fun other hOther => hKnown other (List.mem_cons_of_mem _ hOther)
      rw [parseLoop_cons]
      by_cases hPositional : isPositional arg = true
      · rw [positionals, List.filter_cons_of_pos hPositional, List.length_cons] at hRoom
        rw [if_pos hPositional, if_neg (by omega), ← state.after_positional rest hPositional]
        apply ih hRest
        change state.numArgs + 1 + (rest.filter isPositional).length ≤ namesCount
        omega
      · rw [positionals, List.filter_cons_of_neg hPositional] at hRoom
        have hOption := (hKnown arg List.mem_cons_self).resolve_left hPositional
        rw [if_neg hPositional]
        cases hVersion : isDashed (lit "version") arg with
        | true =>
            rw [if_pos rfl, ← state.after_version rest hVersion]
            exact ih hRest hRoom
        | false =>
            have hHelp : isDashed (lit "help") arg = true := by
              simpa [isOption, hVersion] using hOption
            rw [if_neg Bool.false_ne_true, if_pos hHelp, ← state.after_help rest hHelp hVersion]
            exact ih hRest hRoom

/-- An unknown argument stops the loop, and so does a positional one without room. -/
theorem parseLoop_rejects {namesCount : Nat} {args : List (List CChar)} {state : ParseState}
    (hFault : (∃ arg ∈ args, isPositional arg = false ∧ isOption arg = false) ∨
      namesCount < state.numArgs + (positionals args).length)
    (hCount : state.numArgs ≤ namesCount) :
    ∃ final err, parseLoop namesCount args state = (final, some err) := by
  induction args generalizing state with
  | nil =>
      rcases hFault with ⟨arg, hArg, _⟩ | hFull
      · cases hArg
      · simp only [positionals, List.filter_nil, List.length_nil] at hFull
        omega
  | cons arg rest ih =>
      rw [parseLoop_cons]
      by_cases hPositional : isPositional arg = true
      · rw [if_pos hPositional]
        by_cases hFull : state.numArgs + 1 > namesCount
        · exact ⟨_, _, if_pos hFull⟩
        · rw [if_neg hFull]
          apply ih _ (Nat.not_lt.mp hFull)
          rcases hFault with ⟨other, hOther, hUnknown⟩ | hFull
          · rcases List.mem_cons.mp hOther with rfl | hOther
            · simp [hPositional] at hUnknown
            · exact Or.inl ⟨other, hOther, hUnknown⟩
          · right
            rw [positionals, List.filter_cons_of_pos hPositional, List.length_cons] at hFull
            change namesCount < state.numArgs + 1 + (rest.filter isPositional).length
            omega
      · rw [if_neg hPositional]
        rw [positionals, List.filter_cons_of_neg hPositional] at hFault
        by_cases hOption : isOption arg = true
        · have hLater : (∃ arg ∈ rest, isPositional arg = false ∧ isOption arg = false) ∨
              namesCount < state.numArgs + (positionals rest).length := by
            apply hFault.imp_left
            rintro ⟨other, hOther, hUnknown⟩
            rcases List.mem_cons.mp hOther with rfl | hOther
            · simp [hOption] at hUnknown
            · exact ⟨other, hOther, hUnknown⟩
          cases hVersion : isDashed (lit "version") arg with
          | true =>
              rw [if_pos rfl]
              exact ih hLater hCount
          | false =>
              have hHelp : isDashed (lit "help") arg = true := by
                simpa [isOption, hVersion] using hOption
              rw [if_neg Bool.false_ne_true, if_pos hHelp]
              exact ih hLater hCount
        · simp only [isOption, Bool.or_eq_true, not_or] at hOption
          exact ⟨_, _, by rw [if_neg hOption.2, if_neg hOption.1]⟩

variable (appName appVersion : List CChar) (argsNames argv : List (List CChar))

/-- A faulty command line ends inside the loop. -/
theorem parse_faulty
    (hFault : (∃ arg ∈ argv.tail, isPositional arg = false ∧ isOption arg = false) ∨
      argsNames.length < (positionals argv.tail).length) :
    ∃ parsed, (cliParser appName appVersion argsNames).parse argv = .ok parsed ∧
      parsed.code = -1 := by
  obtain ⟨final, err, hLoop⟩ := @parseLoop_rejects argsNames.length argv.tail { arguments := [] }
    (by simpa using hFault) (Nat.zero_le _)
  let cli := { cliParser appName appVersion argsNames with arguments := final.arguments }
  refine ⟨⟨cli, [], err, -1⟩, ?_, rfl⟩
  simp only [CliParser.parse, cliParser, hLoop]
  rfl

theorem any_isOption (args : List (List CChar)) :
    args.any isOption =
      (args.any (isDashed (lit "help")) || args.any (isDashed (lit "version"))) := by
  induction args with
  | nil => rfl
  | cons arg rest ih =>
      simp only [List.any_cons, ih, isOption]
      ac_rfl

/-- The code once all arguments are read. An option ends the program, else the
positional arguments are counted. -/
def codeOf (args : List (List CChar)) : Int32 :=
  if args.any isOption then 0
  else if (positionals args).length < argsNames.length then -1 else 1

theorem code_failure_iff (args : List (List CChar)) :
    codeOf argsNames args = -1 ↔
      (positionals args).length < argsNames.length ∧ ∀ arg ∈ args, isOption arg = false := by
  unfold codeOf
  split
  · rename_i hOption
    obtain ⟨arg, hArg, hOption⟩ := List.any_eq_true.mp hOption
    refine iff_of_false (by decide) fun h => ?_
    simp [h.2 arg hArg] at hOption
  · rename_i hNone
    simp only [List.any_eq_true, not_exists, not_and, Bool.not_eq_true] at hNone
    split
    · exact iff_of_true rfl ⟨‹_›, hNone⟩
    · exact iff_of_false (by decide) fun h => absurd h.1 ‹_›

theorem code_options_iff (args : List (List CChar)) :
    codeOf argsNames args = 0 ↔ ∃ arg ∈ args, isOption arg = true := by
  rw [← List.any_eq_true, codeOf]
  split
  · exact iff_of_true rfl ‹_›
  · refine iff_of_false ?_ ‹_›
    split <;> decide

theorem code_success_iff (args : List (List CChar)) :
    codeOf argsNames args = 1 ↔
      (∀ arg ∈ args, isOption arg = false) ∧ argsNames.length ≤ (positionals args).length := by
  unfold codeOf
  split
  · rename_i hOption
    obtain ⟨arg, hArg, hOption⟩ := List.any_eq_true.mp hOption
    refine iff_of_false (by decide) fun h => ?_
    simp [h.1 arg hArg] at hOption
  · rename_i hNone
    simp only [List.any_eq_true, not_exists, not_and, Bool.not_eq_true] at hNone
    split
    · exact iff_of_false (by decide) fun h => absurd h.2 (by omega)
    · exact iff_of_true rfl ⟨hNone, by omega⟩

/-- A command line without a fault is read to its end. -/
theorem parse_known
    (hKnown : ∀ arg ∈ argv.tail, isPositional arg = true ∨ isOption arg = true)
    (hRoom : (positionals argv.tail).length ≤ argsNames.length) :
    ∃ parsed, (cliParser appName appVersion argsNames).parse argv = .ok parsed ∧
      parsed.cli.arguments = positionals argv.tail ∧ parsed.code = codeOf argsNames argv.tail := by
  have hLoop := @parseLoop_accepts argsNames.length argv.tail { arguments := [] } hKnown
    (by simpa using hRoom)
  rw [codeOf, any_isOption]
  cases hHelp : argv.tail.any (isDashed (lit "help")) with
  | true =>
      cases argv with
      | nil => simp at hHelp
      | cons program args =>
          simp only [CliParser.parse, cliParser, hLoop, ParseState.after, hHelp]
          exact ⟨_, rfl, rfl, rfl⟩
  | false =>
      cases hVersion : argv.tail.any (isDashed (lit "version")) with
      | true =>
          simp only [CliParser.parse, cliParser, hLoop, ParseState.after, hHelp, hVersion]
          exact ⟨_, rfl, rfl, rfl⟩
      | false =>
          by_cases hFew : (positionals argv.tail).length < argsNames.length
          · simp only [CliParser.parse, cliParser, hLoop, ParseState.after, hHelp, hVersion, hFew,
              Nat.zero_add]
            exact ⟨_, rfl, rfl, rfl⟩
          · simp only [CliParser.parse, cliParser, hLoop, ParseState.after, hHelp, hVersion, hFew,
              Nat.zero_add]
            exact ⟨_, rfl, rfl, rfl⟩

/-- All arguments are positional and there is one for each name. -/
def Complete (argsNames args : List (List CChar)) : Prop :=
  (∀ arg ∈ args, isPositional arg = true) ∧ args.length = argsNames.length

theorem Complete.positionals_eq {argsNames args : List (List CChar)} (h : Complete argsNames args) :
    positionals args = args := List.filter_eq_self.mpr h.1

/-- What is left when no argument is unknown and none is an option. -/
theorem complete_iff {args : List (List CChar)}
    (hKnown : ∀ arg ∈ args, isPositional arg = true ∨ isOption arg = true) :
    Complete argsNames args ↔
      (∀ arg ∈ args, isOption arg = false) ∧ (positionals args).length = argsNames.length := by
  constructor
  · intro hComplete
    refine ⟨fun arg hArg => ?_, by rw [hComplete.positionals_eq, hComplete.2]⟩
    cases hOption : isOption arg with
    | false => rfl
    | true =>
        have hNot := isPositional_of_isOption hOption
        rw [hComplete.1 arg hArg] at hNot
        cases hNot
  · rintro ⟨hNone, hCount⟩
    have hAll : ∀ arg ∈ args, isPositional arg = true := by
      intro arg hArg
      apply (hKnown arg hArg).resolve_right
      rw [hNone arg hArg]
      exact Bool.false_ne_true
    rw [positionals, List.filter_eq_self.mpr hAll] at hCount
    exact ⟨hAll, hCount⟩

theorem known_or_faulty :
    ((∀ arg ∈ argv.tail, isPositional arg = true ∨ isOption arg = true) ∧
      (positionals argv.tail).length ≤ argsNames.length) ∨
    (∃ arg ∈ argv.tail, isPositional arg = false ∧ isOption arg = false) ∨
      argsNames.length < (positionals argv.tail).length := by
  by_cases hUnknown : ∃ arg ∈ argv.tail, isPositional arg = false ∧ isOption arg = false
  · exact Or.inr (Or.inl hUnknown)
  · rcases Nat.lt_or_ge argsNames.length (positionals argv.tail).length with hFull | hRoom
    · exact Or.inr (Or.inr hFull)
    · refine Or.inl ⟨fun arg hArg => ?_, hRoom⟩
      by_contra hNeither
      simp only [not_or, Bool.not_eq_true] at hNeither
      exact hUnknown ⟨arg, hArg, hNeither⟩

/-- `main` reads the first stored argument only where there is one. -/
theorem mainModule_ok (projectVersion : List CChar) :
    ∃ answer, mainModule projectVersion argv = .ok answer := by
  unfold mainModule
  rcases known_or_faulty [lit "MODULE"] argv with ⟨hKnown, hRoom⟩ | hFault
  · obtain ⟨parsed, hParse, hArguments, hCode⟩ :=
      parse_known (lit "QRVMC VM Tester") projectVersion [lit "MODULE"] argv hKnown hRoom
    simp only [hParse, bind, Except.bind]
    split
    · exact ⟨_, rfl⟩
    · rename_i hPositive
      have hCount : ¬(positionals argv.tail).length < 1 := by
        intro hFew
        apply hPositive
        rw [hCode, codeOf]
        split
        · decide
        · rw [if_pos (by simpa using hFew)]
          decide
      have hFirst : 0 < parsed.cli.arguments.length := by
        rw [hArguments]
        omega
      rw [List.getElem?_eq_getElem hFirst]
      exact ⟨_, rfl⟩
  · obtain ⟨parsed, hParse, hCode⟩ :=
      parse_faulty (lit "QRVMC VM Tester") projectVersion [lit "MODULE"] argv hFault
    refine ⟨.inl parsed.code, ?_⟩
    simp only [hParse, bind, Except.bind]
    rw [if_pos (by rw [hCode]; decide)]
    rfl

/-- The result of parsing and the arguments that decide it. One argument of `main` is
stored when parsing succeeds. -/
theorem parse_outcome :
    (∃ parsed, (cliParser appName appVersion argsNames).parse argv = .ok parsed ∧
      (parsed.code = -1 ↔
        (∃ arg ∈ argv.tail, isPositional arg = false ∧ isOption arg = false) ∨
        argsNames.length < (positionals argv.tail).length ∨
        ((positionals argv.tail).length < argsNames.length ∧
          ∀ arg ∈ argv.tail, isOption arg = false)) ∧
      (parsed.code = 0 ↔
        (∀ arg ∈ argv.tail, isPositional arg = true ∨ isOption arg = true) ∧
        (positionals argv.tail).length ≤ argsNames.length ∧
        ∃ arg ∈ argv.tail, isOption arg = true) ∧
      (parsed.code = 1 ↔ Complete argsNames argv.tail) ∧
      (parsed.code = 1 → parsed.cli.arguments = positionals argv.tail)) ∧
    ∀ projectVersion, ∃ answer, mainModule projectVersion argv = .ok answer := by
  refine ⟨?_, mainModule_ok argv⟩
  rcases known_or_faulty argsNames argv with ⟨hKnown, hRoom⟩ | hFault
  · have hSound : ¬((∃ arg ∈ argv.tail, isPositional arg = false ∧ isOption arg = false) ∨
        argsNames.length < (positionals argv.tail).length) := by
      rintro (⟨arg, hArg, hPositional, hOption⟩ | hFull)
      · simpa [hPositional, hOption] using hKnown arg hArg
      · omega
    obtain ⟨parsed, hParse, hArguments, hCode⟩ :=
      parse_known appName appVersion argsNames argv hKnown hRoom
    refine ⟨parsed, hParse, ?_, ?_, ?_, fun _ => hArguments⟩
    · rw [← or_assoc, or_iff_right hSound, hCode]
      exact code_failure_iff argsNames argv.tail
    · rw [hCode, code_options_iff]
      exact ⟨fun hOption => ⟨hKnown, hRoom, hOption⟩, fun h => h.2.2⟩
    · rw [complete_iff argsNames hKnown, hCode, code_success_iff]
      exact and_congr_right fun _ => ⟨Nat.le_antisymm hRoom, fun hEqual => Nat.le_of_eq hEqual.symm⟩
  · have hNot : ¬((∀ arg ∈ argv.tail, isPositional arg = true ∨ isOption arg = true) ∧
        (positionals argv.tail).length ≤ argsNames.length) := by
      rintro ⟨hKnown, hRoom⟩
      rcases hFault with ⟨arg, hArg, hPositional, hOption⟩ | hFull
      · simpa [hPositional, hOption] using hKnown arg hArg
      · omega
    obtain ⟨parsed, hParse, hCode⟩ := parse_faulty appName appVersion argsNames argv hFault
    refine ⟨parsed, hParse, iff_of_true hCode ?_, iff_of_false (by rw [hCode]; decide) ?_,
      iff_of_false (by rw [hCode]; decide) ?_, fun hOne => ?_⟩
    · exact hFault.imp_right Or.inl
    · rintro ⟨hKnown, hRoom, _⟩
      exact hNot ⟨hKnown, hRoom⟩
    · intro hComplete
      apply hNot
      rw [hComplete.positionals_eq, hComplete.2]
      exact ⟨fun arg hArg => Or.inl (hComplete.1 arg hArg), Nat.le_refl _⟩
    · rw [hCode] at hOne
      exact absurd hOne (by decide)

end Qrvmc.VmTester
