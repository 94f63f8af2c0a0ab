import Qrvmc.Memory.Text
import Qrvmc.Types.Basic

/-! C strings and the formatting of error messages. A format string is a literal
of the source with the conversions `%s` and `%d`. What is composed from texts
contains no terminator, so a message is a text again. -/
namespace Qrvmc
open Memory

abbrev CText := Text CChar

/-- A character of the ASCII range other than the terminator. -/
def isAscii (c : Char) : Bool := 0 < c.toNat && c.toNat < 128

theorem chr_ne_zero {c : Char} (h : isAscii c = true) : chr c ≠ 0 := by
  have hCode : ∀ code : Fin 128, 0 < code.val → Int8.ofNat code ≠ 0 := by decide +kernel
  simp only [isAscii, Bool.and_eq_true, decide_eq_true_eq] at h
  exact hCode ⟨c.toNat, h.2⟩ h.1

theorem zero_not_mem_map_chr {chars : List Char} (h : ∀ c ∈ chars, isAscii c) :
    (0 : CChar) ∉ chars.map chr := by
  intro hZero
  obtain ⟨c, hChar, hNul⟩ := List.mem_map.mp hZero
  exact chr_ne_zero (h c hChar) hNul

/-- A string literal, as the text that a pointer to it refers to. -/
def text (s : String) (h : s.toList.all isAscii = true := by decide) : CText :=
  ⟨lit s, zero_not_mem_map_chr (List.all_eq_true.mp h)⟩

/-- What `%d` prints. -/
def decimal (n : Int32) : List CChar :=
  (if n < 0 then [chr '-'] else []) ++ (Nat.toDigits 10 n.toInt.natAbs).map chr

theorem isAscii_of_isDigit {c : Char} (h : c.isDigit = true) : isAscii c = true := by
  simp only [Char.isDigit, Bool.and_eq_true, decide_eq_true_eq, UInt32.le_iff_toNat_le] at h
  have hLow : 48 ≤ c.toNat := h.1
  have hHigh : c.toNat ≤ 57 := h.2
  simp only [isAscii, Bool.and_eq_true, decide_eq_true_eq]
  omega

inductive FormatArg where
  | str (value : CText)
  | int (value : Int32)

/-- The output of a `printf` format with its arguments. -/
def format : List Char → List FormatArg → List CChar
  | '%' :: 's' :: rest, .str value :: args => value.chars ++ format rest args
  | '%' :: 'd' :: rest, .int value :: args => decimal value ++ format rest args
  | c :: rest, args => chr c :: format rest args
  | [], _ => []

theorem zero_not_mem_decimal (n : Int32) : 0 ∉ decimal n := by
  intro hZero
  rcases List.mem_append.mp hZero with hSign | hDigits
  · split at hSign
    · exact absurd (List.mem_singleton.mp hSign) (by decide)
    · cases hSign
  · exact zero_not_mem_map_chr (fun c hChar => isAscii_of_isDigit
      (Nat.isDigit_of_mem_toDigits (by decide) (by decide) hChar)) hDigits

theorem zero_not_mem_format {chars : List Char} (h : ∀ c ∈ chars, isAscii c)
    (args : List FormatArg) : 0 ∉ format chars args := by
  induction chars, args using format.induct with
  | case1 rest value args ih =>
      rw [format]
      intro hZero
      exact (List.mem_append.mp hZero).elim value.noNul (ih fun c hChar => h c (by simp [hChar]))
  | case2 rest value args ih =>
      rw [format]
      intro hZero
      exact (List.mem_append.mp hZero).elim (zero_not_mem_decimal value)
        (ih fun c hChar => h c (by simp [hChar]))
  | case3 c rest args hStr hInt ih =>
      rw [format]
      · intro hZero
        rcases List.mem_cons.mp hZero with hHead | hTail
        · exact chr_ne_zero (h c (List.mem_cons_self ..)) hHead.symm
        · exact ih (fun c hChar => h c (List.mem_cons_of_mem _ hChar)) hTail
      · exact hStr
      · exact hInt
  | case4 args =>
      rw [format]
      exact List.not_mem_nil

/-- A format literal with its arguments, formatted in full. -/
def message (s : String) (args : List FormatArg) (h : s.toList.all isAscii = true := by decide) :
    CText :=
  ⟨format s.toList args, zero_not_mem_format (List.all_eq_true.mp h) args⟩

end Qrvmc
