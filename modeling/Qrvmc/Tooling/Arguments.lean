import Qrvmc.Hex.Acceptors
import Qrvmc.Hex.SpacedHex

/-! The hexadecimal arguments of the tool. An argument is the text itself, or names the file
of the text behind an at sign. What the validator lets through is decoded, except that the
contents of a file are checked only while they are read. -/
namespace Qrvmc.Tooling
open Containers

/-- What `load_from_hex` may throw. -/
inductive LoadException where
  | badOptionalAccess
  | invalidArgument (what : List CChar)

/-- The characters that a stream of the file at a path gives. It gives none if the file
does not open. -/
abbrev Files := List CChar → List CChar

/-- `str[0] == '@'`. Behind an empty string there is the terminator. -/
def namesFile (str : List CChar) : Bool := str.headD 0 == chr '@'

def loadFromHex (files : Files) (str : List CChar) :
    Exec (Except LoadException (List UInt8)) := do
  if namesFile str then
    let path := str.drop 1
    let file := files path
    let (out, _) ← fromSpacedHexRange (singlePassOps .outOfBounds) (file.length + 1) false true
      ⟨file, false⟩
    match out with
    | none => return .error (.invalidArgument (lit "invalid hex in " ++ path))
    | some bytes => return .ok bytes
  else
    match ← fromHex str with
    | none => return .error .badOptionalAccess
    | some bytes => return .ok bytes

/-- The function of `HexOrFileValidator`, with the check of the path that it uses. It
answers what is wrong with an argument. -/
def hexOrFile (existingFile : List CChar → List CChar) (str : List CChar) :
    Exec (List CChar) := do
  if !str.isEmpty && namesFile str then return existingFile (str.drop 1)
  else if !(← validateHex str) then return lit "invalid hex"
  else return []

variable {files : Files} {existingFile : List CChar → List CChar} {str path : List CChar}

/-- The text that an argument stands for: itself, or what the file has besides white space. -/
def argumentText (files : Files) (str : List CChar) : List CChar :=
  if namesFile str then (files (str.drop 1)).filter isNotSpace else str

theorem exists_path (h : namesFile str = true) : ∃ path, str = chr '@' :: path := by
  cases str with
  | nil => exact absurd h (by decide)
  | cons head path => exact ⟨path, by rw [eq_of_beq (show (head == chr '@') = true from h)]⟩

/-- What `load_from_hex` throws where the text is not hexadecimal. -/
def loadException (str : List CChar) : LoadException :=
  if namesFile str then .invalidArgument (lit "invalid hex in " ++ str.drop 1)
  else .badOptionalAccess

theorem argumentText_of_file (h : namesFile str = true) :
    argumentText files str = (files (str.drop 1)).filter isNotSpace := if_pos h

theorem argumentText_of_text (h : namesFile str = false) : argumentText files str = str :=
  if_neg (by rw [h]; decide)

theorem readFile_eq (file : List CChar) :
    (fromSpacedHexRange (singlePassOps .outOfBounds) (file.length + 1) false true
      ⟨file, false⟩).map Prod.fst = fromHex (file.filter isNotSpace) := by
  apply fromSpacedHexRange_eq (yields_singlePassOps file .outOfBounds) _ (Nat.lt_succ_self _)
  intro source
  simp [singlePassOps]

/-- Text and files are scanned alike. They differ in what is thrown. -/
theorem loadFromHex_eq (files : Files) (str : List CChar) :
    loadFromHex files str = .ok (if (scanText (argumentText files str)).2
      then .ok (scanText (argumentText files str)).1 else .error (loadException str)) := by
  cases hFile : namesFile str with
  | true =>
      have hRead := readFile_eq (files (str.drop 1))
      rw [fromHex_eq] at hRead
      rw [argumentText_of_file hFile, loadException, if_pos hFile, loadFromHex, if_pos hFile]
      cases hRun : fromSpacedHexRange (singlePassOps .outOfBounds)
        ((files (str.drop 1)).length + 1) false true ⟨files (str.drop 1), false⟩ with
      | error fault =>
          rw [hRun] at hRead
          cases hRead
      | ok outcome =>
          rw [hRun] at hRead
          have hOut : outcome.1 = _ := Except.ok.inj hRead
          simp only [hRun, bind, Except.bind]
          rw [hOut]
          cases (scanText ((files (str.drop 1)).filter isNotSpace)).2 with
          | true => rfl
          | false => rfl
  | false =>
      have hText : ¬namesFile str = true := by
        rw [hFile]
        decide
      rw [argumentText_of_text hFile, loadException, if_neg hText, loadFromHex, if_neg hText,
        fromHex_eq]
      by_cases hScan : (scanText str).2 = true
      · simp only [hScan, ↓reduceIte]
        rfl
      · simp only [hScan]
        rfl

theorem hexOrFile_text (h : namesFile str = false) :
    hexOrFile existingFile str =
      .ok (if (scanText str).2 then [] else lit "invalid hex") := by
  rw [hexOrFile, h, Bool.and_false, if_neg (by decide), validateHex_eq]
  cases (scanText str).2 with
  | true => rfl
  | false => rfl

/-- The validator and the decoder of arguments. An argument that is let through is decoded
to the bytes that its text spells, or names a file without such a text and is reported as
that. Only a text that is not let through ends in a missing value. A text may be moved to a
file, and broken by white space there. -/
theorem arguments_decoded (files : Files) (existingFile : List CChar → List CChar)
    (str : List CChar) :
    (hexOrFile existingFile str = .ok [] →
      (∃ t, Spells (argumentText files str) t ∧
        loadFromHex files str = .ok (.ok (decodeDigits t))) ∨
      ∃ path, str = chr '@' :: path ∧ (∀ t, ¬Spells (argumentText files str) t) ∧
        loadFromHex files str = .ok (.error (.invalidArgument (lit "invalid hex in " ++ path)))) ∧
    (loadFromHex files str = .ok (.error .badOptionalAccess) ↔
      namesFile str = false ∧ hexOrFile existingFile str = .ok (lit "invalid hex")) ∧
    ∀ path, (files path).filter isNotSpace = str → hexOrFile existingFile str = .ok [] →
      namesFile str = false → loadFromHex files (chr '@' :: path) = loadFromHex files str := by
  have hSpelled (h : (scanText (argumentText files str)).2 = true) :
      ∃ t, Spells (argumentText files str) t ∧
        loadFromHex files str = .ok (.ok (decodeDigits t)) := by
    obtain ⟨t, hSpells⟩ := (scanText_snd_iff _).mp h
    refine ⟨t, hSpells, ?_⟩
    rw [loadFromHex_eq, scanText_of_spells hSpells]
    rfl
  refine ⟨fun hAccepted => ?_, ?_, fun path hContents hAccepted hText => ?_⟩
  · cases hScan : (scanText (argumentText files str)).2 with
    | true => exact .inl (hSpelled hScan)
    | false =>
        cases hFile : namesFile str with
        | true =>
            obtain ⟨path, rfl⟩ := exists_path hFile
            refine .inr ⟨path, rfl, fun t hSpells => ?_, ?_⟩
            · rw [scanText_of_spells hSpells] at hScan
              cases hScan
            · rw [loadFromHex_eq, hScan, loadException, if_pos hFile]
              rfl
        | false =>
            rw [argumentText_of_text hFile] at hScan
            rw [hexOrFile_text hFile, hScan] at hAccepted
            exact absurd (Except.ok.inj hAccepted) (by decide)
  · rw [loadFromHex_eq]
    cases hFile : namesFile str with
    | true =>
        rw [loadException, if_pos hFile]
        refine iff_of_false (fun hThrown => ?_) fun hRejected => Bool.noConfusion hRejected.1
        split at hThrown <;> cases hThrown
    | false =>
        have hThrows : loadException str = .badOptionalAccess := by
          rw [loadException, hFile]
          rfl
        rw [hexOrFile_text hFile, argumentText_of_text hFile, hThrows]
        cases (scanText str).2 with
        | true =>
            exact iff_of_false (fun hThrown => by cases hThrown) fun hRejected =>
              absurd (Except.ok.inj hRejected.2) (by decide)
        | false => exact iff_of_true rfl ⟨rfl, rfl⟩
  · rw [hexOrFile_text hText] at hAccepted
    have hScan : (scanText str).2 = true := by
      cases hScan : (scanText str).2 with
      | true => rfl
      | false =>
          rw [hScan] at hAccepted
          exact absurd (Except.ok.inj hAccepted) (by decide)
    have hFile : namesFile (chr '@' :: path) = true := beq_self_eq_true (chr '@')
    rw [loadFromHex_eq, loadFromHex_eq, argumentText_of_file hFile, argumentText_of_text hText,
      List.drop_one, List.tail_cons, hContents, hScan]
    rfl

end Qrvmc.Tooling
