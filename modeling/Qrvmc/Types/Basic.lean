import Mathlib.Data.List.Basic

/-! Characters, literals, printed numbers and undefined behaviour. A `char` is a signed
byte, as on the platforms the library is built for, and a text is a list of them. What is
printed of a number tells the number. -/
namespace Qrvmc

/-- The C and C++ type `char`. -/
abbrev CChar := Int8

/-- The character written `c` in the source. -/
def chr (c : Char) : CChar := Int8.ofNat c.toNat

/-- The characters of a string literal, without the terminator. -/
def lit (s : String) : List CChar := s.toList.map chr

/-- A property of characters may be checked on the 256 values of a byte. -/
theorem forall_char {motive : CChar → Prop}
    (h : ∀ byte : Fin 256, motive (UInt8.ofFin byte).toInt8) (c : CChar) : motive c :=
  h c.toUInt8.toFin

/-- What a run of the modelled code may do instead of returning a value. -/
inductive Undefined where
  | outOfBounds
  | outOfFuel
  | nullDereference
  deriving DecidableEq

/-- The outcome of code that may misbehave. -/
abbrev Exec := Except Undefined

/-- A sequence succeeds when both of its parts do. -/
theorem bind_eq_ok_iff {Fault First Second : Type} (first : Except Fault First)
    (next : First → Except Fault Second) (result : Second) :
    (first >>= next) = .ok result ↔ ∃ value, first = .ok value ∧ next value = .ok result := by
  cases first with
  | error fault => exact iff_of_false (fun h => by cases h) fun ⟨_, h, _⟩ => by cases h
  | ok value => exact ⟨fun h => ⟨value, rfl, h⟩, fun ⟨_, h, hNext⟩ => by cases h; exact hNext⟩

/-- A text ends where its separator is seen first. -/
theorem separated_inj {separator : CChar} {first second rest other : List CChar}
    (hFirst : separator ∉ first) (hSecond : separator ∉ second)
    (h : first ++ separator :: rest = second ++ separator :: other) :
    first = second ∧ rest = other := by
  induction first generalizing second with
  | nil =>
      cases second with
      | nil => exact ⟨rfl, (List.cons.inj h).2⟩
      | cons head tail =>
          obtain ⟨hHead, _⟩ := List.cons.inj h
          exact absurd (hHead ▸ List.mem_cons_self ..) hSecond
  | cons head tail ih =>
      cases second with
      | nil =>
          obtain ⟨hHead, _⟩ := List.cons.inj h
          exact absurd (hHead ▸ List.mem_cons_self ..) hFirst
      | cons next following =>
          obtain ⟨hHead, hTail⟩ := List.cons.inj h
          obtain ⟨hSame, hRest⟩ := ih (fun hMem => hFirst (List.mem_cons_of_mem _ hMem))
            (fun hMem => hSecond (List.mem_cons_of_mem _ hMem)) hTail
          exact ⟨by rw [hHead, hSame], hRest⟩

section Printed

/-- What a stream prints of an integer. -/
def printed (value : Int) : List CChar :=
  (if value < 0 then [chr '-'] else []) ++ (Nat.toDigits 10 value.natAbs).map chr

def decimalDigits : List Char := ['0', '1', '2', '3', '4', '5', '6', '7', '8', '9']

theorem mem_decimalDigits {c : Char} (h : c.isDigit = true) : c ∈ decimalDigits := by
  obtain ⟨hLow, hHigh⟩ := Char.isDigit_iff_toNat.mp h
  have hChar : c = Char.ofNat c.toNat := (Char.ofNat_toNat c).symm
  have hAll : ∀ i : Fin 10, Char.ofNat (48 + i.val) ∈ decimalDigits := by decide
  have hIndex := hAll ⟨c.toNat - 48, by change c.toNat ≤ 57 at hHigh; omega⟩
  have hSum : 48 + (c.toNat - 48) = c.toNat := by
    change 48 ≤ c.toNat at hLow
    omega
  rw [hSum, ← hChar] at hIndex
  exact hIndex

/-- What is checked of the ten digits. -/
theorem forall_decimalDigits {motive : Char → Bool} (h : decimalDigits.all motive = true) :
    ∀ digit ∈ decimalDigits, motive digit = true :=
  List.all_eq_true.mp h

/-- The digits that are printed of a number. -/
theorem mem_printed {value : Int} {character : CChar} (h : character ∈ printed value) :
    character = chr '-' ∨ ∃ digit ∈ decimalDigits, character = chr digit := by
  rw [printed, List.mem_append] at h
  cases h with
  | inl hSign =>
      left
      split at hSign
      · exact List.mem_singleton.mp hSign
      · cases hSign
  | inr hDigit =>
      right
      obtain ⟨digit, hMem, rfl⟩ := List.mem_map.mp hDigit
      have hDigit := Nat.isDigit_of_mem_toDigits (by decide) (by decide) hMem
      exact ⟨digit, mem_decimalDigits hDigit, rfl⟩

theorem not_mem_printed {character : CChar} (hSign : character ≠ chr '-')
    (hDigits : decimalDigits.all (fun digit => character != chr digit) = true) (value : Int) :
    character ∉ printed value := by
  intro h
  cases mem_printed h with
  | inl hSame => exact hSign hSame
  | inr hSome =>
      obtain ⟨digit, hDigit, hSame⟩ := hSome
      exact bne_iff_ne.mp (forall_decimalDigits hDigits digit hDigit) hSame

theorem newline_not_mem_printed (value : Int) : chr '\n' ∉ printed value :=
  not_mem_printed (by decide) (by decide) value

theorem space_not_mem_printed (value : Int) : chr ' ' ∉ printed value :=
  not_mem_printed (by decide) (by decide) value

theorem digits_inj {first second : List Char} (hFirst : ∀ c ∈ first, c ∈ decimalDigits)
    (hSecond : ∀ c ∈ second, c ∈ decimalDigits) (h : first.map chr = second.map chr) :
    first = second := by
  have hBack : ∀ c ∈ decimalDigits, (Char.ofNat (chr c).toInt.toNat == c) = true :=
    forall_decimalDigits (by decide)
  have hChr : ∀ c ∈ decimalDigits, ∀ d ∈ decimalDigits, chr c = chr d → c = d := by
    intro c hC d hD hSame
    rw [← eq_of_beq (hBack c hC), hSame, eq_of_beq (hBack d hD)]
  induction first generalizing second with
  | nil => exact (List.map_eq_nil_iff.mp h.symm).symm
  | cons head tail ih =>
      cases second with
      | nil => cases h
      | cons next rest =>
          obtain ⟨hHead, hTail⟩ := List.cons.inj h
          have hSame := hChr head (hFirst head (List.mem_cons_self ..)) next
            (hSecond next (List.mem_cons_self ..)) hHead
          rw [hSame, ih (fun c hMem => hFirst c (List.mem_cons_of_mem _ hMem))
            (fun c hMem => hSecond c (List.mem_cons_of_mem _ hMem)) hTail]

theorem toDigits_inj {first second : Nat}
    (h : (Nat.toDigits 10 first).map chr = (Nat.toDigits 10 second).map chr) : first = second := by
  have hDigits (n : Nat) : ∀ c ∈ Nat.toDigits 10 n, c ∈ decimalDigits :=
    fun c hMem => mem_decimalDigits (Nat.isDigit_of_mem_toDigits (by decide) (by decide) hMem)
  have hSame := digits_inj (hDigits first) (hDigits second) h
  rw [← @Nat.ofDigitChars_ten_toDigits first, hSame, Nat.ofDigitChars_ten_toDigits]

/-- A number is printed without a sign unless it is negative. -/
theorem sign_not_mem_toDigits (n : Nat) : chr '-' ∉ (Nat.toDigits 10 n).map chr := by
  intro h
  obtain ⟨digit, hMem, hSame⟩ := List.mem_map.mp h
  have hDigit := mem_decimalDigits (Nat.isDigit_of_mem_toDigits (by decide) (by decide) hMem)
  have hSign : ∀ c ∈ decimalDigits, (chr c != chr '-') = true := forall_decimalDigits (by decide)
  exact bne_iff_ne.mp (hSign digit hDigit) hSame

theorem printed_inj {value other : Int} (h : printed value = printed other) : value = other := by
  unfold printed at h
  by_cases hValue : value < 0
  · by_cases hOther : other < 0
    · rw [if_pos hValue, if_pos hOther] at h
      have hSame := toDigits_inj (List.append_cancel_left h)
      omega
    · rw [if_pos hValue, if_neg hOther] at h
      have hMem : chr '-' ∈ (Nat.toDigits 10 other.natAbs).map chr := by
        rw [← List.nil_append ((Nat.toDigits 10 other.natAbs).map chr), ← h]
        exact List.mem_cons_self ..
      exact absurd hMem (sign_not_mem_toDigits _)
  · by_cases hOther : other < 0
    · rw [if_neg hValue, if_pos hOther] at h
      have hMem : chr '-' ∈ (Nat.toDigits 10 value.natAbs).map chr := by
        rw [← List.nil_append ((Nat.toDigits 10 value.natAbs).map chr), h]
        exact List.mem_cons_self ..
      exact absurd hMem (sign_not_mem_toDigits _)
    · rw [if_neg hValue, if_neg hOther] at h
      have hSame := toDigits_inj (List.append_cancel_left h)
      omega

end Printed

end Qrvmc
