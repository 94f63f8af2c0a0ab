import Qrvmc.Containers.Chunks
import Qrvmc.Host.ExampleHost
import Qrvmc.Host.Steps

/-! Reading the code of an account in chunks, from the mocked host and from the example
host. The two hosts copy code alike, from any offset, and no access goes wrong. -/
namespace Qrvmc
open Containers

/-- The body of `copy_code` once the account is found, with every subtraction and every
access checked. -/
def copyCodeChecked (code : List UInt8) (codeOffset : Nat) (buffer : List UInt8) :
    Except CopyFault (Nat × List UInt8) :=
  if codeOffset ≥ code.length then .ok (0, buffer)
  else do
    let n := min buffer.length (← checkedSub code.length codeOffset)
    if n > 0 then return (n, ← checkedCopy code codeOffset n buffer)
    else return (n, buffer)

/-- What the body copies, without its case distinctions. -/
def codeWindow (code : List UInt8) (codeOffset : Nat) (buffer : List UInt8) : Nat × List UInt8 :=
  let n := min buffer.length (code.length - codeOffset)
  (n, (code.drop codeOffset).take n ++ buffer.drop n)

theorem copyCodeChecked_eq (code : List UInt8) (codeOffset : Nat) (buffer : List UInt8) :
    copyCodeChecked code codeOffset buffer = .ok (codeWindow code codeOffset buffer) := by
  by_cases hBeyond : codeOffset ≥ code.length
  · have hZero : code.length - codeOffset = 0 := by omega
    simp [copyCodeChecked, codeWindow, if_pos hBeyond, hZero]
  · have hSub : checkedSub code.length codeOffset = .ok (code.length - codeOffset) :=
      if_pos (by omega)
    simp only [copyCodeChecked, if_neg hBeyond, hSub, codeWindow, bind, Except.bind]
    by_cases hSome : min buffer.length (code.length - codeOffset) > 0
    · rw [if_pos hSome, checkedCopy, if_pos (by omega), if_pos (by omega)]
      rfl
    · have hNone : min buffer.length (code.length - codeOffset) = 0 := by omega
      rw [if_neg hSome, hNone]
      rfl

theorem codeWindow_nil (codeOffset : Nat) (buffer : List UInt8) :
    codeWindow [] codeOffset buffer = (0, buffer) := by
  simp [codeWindow]

/-- The unchecked body of the two hosts. -/
theorem codeWindow_eq (code : List UInt8) (codeOffset : Nat) (buffer : List UInt8) :
    codeWindow code codeOffset buffer =
      if codeOffset ≥ code.length then (0, buffer)
      else
        let n := min buffer.length (code.length - codeOffset)
        if n > 0 then (n, (code.drop codeOffset).take n ++ buffer.drop n) else (n, buffer) := by
  split
  · rename_i hBeyond
    have hZero : code.length - codeOffset = 0 := by omega
    simp [codeWindow, hZero]
  · simp only [codeWindow]
    split
    · rfl
    · rename_i hNone
      have hZero : min buffer.length (code.length - codeOffset) = 0 := by omega
      rw [hZero]
      rfl

/-- The code of an account, empty for a missing one. -/
def MockedHost.codeAt (host : MockedHost) (addr : Address) : List UInt8 :=
  ((host.accounts.find addr).map MockedAccount.code).getD []

def ExampleHost.codeAt (host : ExampleHost) (addr : Address) : List UInt8 :=
  ((host.accounts.find addr).map ExampleAccount.code).getD []

theorem MockedHost.copyCode_eq (host : MockedHost) (addr : Address) (codeOffset : Nat)
    (buffer : List UInt8) :
    host.copyCode addr codeOffset buffer =
      (host.recordAccountAccess addr, codeWindow (host.codeAt addr) codeOffset buffer) := by
  simp only [MockedHost.copyCode, MockedHost.recordAccountAccess_accounts, MockedHost.codeAt]
  cases hAccount : host.accounts.find addr with
  | none => exact congrArg _ (codeWindow_nil codeOffset buffer).symm
  | some account =>
      simp only [Option.map_some, Option.getD_some, codeWindow_eq]
      split
      · rfl
      · split <;> rfl

theorem ExampleHost.copyCode_eq (host : ExampleHost) (addr : Address) (codeOffset : Nat)
    (buffer : List UInt8) :
    host.copyCode addr codeOffset buffer = codeWindow (host.codeAt addr) codeOffset buffer := by
  simp only [ExampleHost.copyCode, ExampleHost.codeAt]
  cases host.accounts.find addr with
  | none => exact (codeWindow_nil codeOffset buffer).symm
  | some account => exact (codeWindow_eq account.code codeOffset buffer).symm

/-- A host of which code is read by size and by copying. The last two fields are the
code as it lies in the host, and the copying with its accesses checked. -/
structure CodeSource (Host : Type) where
  getCodeSize : Host → Address → Nat
  copyCode : Address → Reader Host UInt8
  codeAt : Host → Address → List UInt8
  copyChecked : Host → Address → Nat → List UInt8 → Except CopyFault (Nat × List UInt8)

def MockedHost.codeSource : CodeSource MockedHost where
  getCodeSize host addr := (host.getCodeSize addr).2
  copyCode addr host codeOffset buffer := host.copyCode addr codeOffset buffer
  codeAt := MockedHost.codeAt
  copyChecked host addr codeOffset buffer :=
    match host.accounts.find addr with
    | none => .ok (0, buffer)
    | some account => copyCodeChecked account.code codeOffset buffer

def ExampleHost.codeSource : CodeSource ExampleHost where
  getCodeSize := ExampleHost.getCodeSize
  copyCode addr host codeOffset buffer := (host, host.copyCode addr codeOffset buffer)
  codeAt := ExampleHost.codeAt
  copyChecked host addr codeOffset buffer :=
    match host.accounts.find addr with
    | none => .ok (0, buffer)
    | some account => copyCodeChecked account.code codeOffset buffer

/-- Reading in chunks gives the code. The chunks are read with buffers of any sizes that
are positive and long enough together, and more buffers than the code has bytes are long
enough. A call writes as many bytes of its buffer as it returns, and it goes wrong
from no offset. -/
structure CodeSource.Lossless {Host : Type} (source : CodeSource Host) : Prop where
  size : ∀ host addr, source.getCodeSize host addr = (source.codeAt host addr).length
  chunks : ∀ host addr buffers, (∀ buffer ∈ buffers, buffer ≠ []) →
    Enough (source.getCodeSize host addr) buffers →
    ∃ final chunks, readChunks (source.copyCode addr) buffers host 0 = (final, some chunks) ∧
      chunks.flatten = source.codeAt host addr
  terminates : ∀ host addr (buffers : List (List UInt8)), (∀ buffer ∈ buffers, buffer ≠ []) →
    source.getCodeSize host addr < buffers.length → Enough (source.getCodeSize host addr) buffers
  untouched : ∀ host addr codeOffset buffer,
    (source.copyCode addr host codeOffset buffer).2.2.drop
        (source.copyCode addr host codeOffset buffer).2.1 =
      buffer.drop (source.copyCode addr host codeOffset buffer).2.1
  safe : ∀ host addr codeOffset buffer,
    source.copyChecked host addr codeOffset buffer =
      .ok (source.copyCode addr host codeOffset buffer).2

/-- A source that copies windows of its code and does not change it is lossless. -/
theorem CodeSource.lossless_of_window {Host : Type} {source : CodeSource Host}
    (hSize : ∀ host addr, source.getCodeSize host addr = (source.codeAt host addr).length)
    (hCopy : ∀ host addr codeOffset buffer, (source.copyCode addr host codeOffset buffer).2 =
      codeWindow (source.codeAt host addr) codeOffset buffer)
    (hKeeps : ∀ host addr codeOffset buffer,
      source.codeAt (source.copyCode addr host codeOffset buffer).1 addr =
        source.codeAt host addr)
    (hSafe : ∀ host addr codeOffset buffer, source.copyChecked host addr codeOffset buffer =
      .ok (source.copyCode addr host codeOffset buffer).2) : source.Lossless := by
  have hReads (code : List UInt8) (addr : Address) : ReadsFrom (source.copyCode addr)
      (fun host => source.codeAt host addr = code) code := by
    constructor
    · intro host codeOffset buffer hHost
      rw [hKeeps, hHost]
    · intro host codeOffset buffer hHost
      rw [hCopy, hHost]
      rfl
    · intro host codeOffset buffer hHost
      rw [hCopy, hHost]
      rfl
  refine ⟨hSize, ?_, fun host addr buffers => enough_of_length, ?_, hSafe⟩
  · intro host addr buffers hSome hEnough
    rw [hSize, ← Nat.sub_zero (source.codeAt host addr).length] at hEnough
    obtain ⟨final, chunks, hRun, hFlatten, _⟩ :=
      (hReads (source.codeAt host addr) addr).readChunks_flatten hSome rfl hEnough
    exact ⟨final, chunks, hRun, hFlatten⟩
  · intro host addr codeOffset buffer
    exact (hReads (source.codeAt host addr) addr).untouched rfl codeOffset buffer

/-- Reading code in chunks loses nothing, from either host. -/
theorem chunked_code_reading :
    MockedHost.codeSource.Lossless ∧ ExampleHost.codeSource.Lossless := by
  constructor
  · apply CodeSource.lossless_of_window
    · intro host addr
      simp only [MockedHost.codeSource, MockedHost.getCodeSize, MockedHost.codeAt,
        MockedHost.recordAccountAccess_accounts]
      cases host.accounts.find addr <;> rfl
    · intro host addr codeOffset buffer
      exact congrArg Prod.snd (host.copyCode_eq addr codeOffset buffer)
    · intro host addr codeOffset buffer
      exact congrArg (fun host => host.codeAt addr) (host.copyCode_fst addr codeOffset buffer)
    · intro host addr codeOffset buffer
      simp only [MockedHost.codeSource, host.copyCode_eq addr codeOffset buffer, MockedHost.codeAt]
      cases host.accounts.find addr with
      | none => exact congrArg _ (codeWindow_nil codeOffset buffer).symm
      | some account => exact copyCodeChecked_eq account.code codeOffset buffer
  · apply CodeSource.lossless_of_window
    · intro host addr
      simp only [ExampleHost.codeSource, ExampleHost.getCodeSize, ExampleHost.codeAt]
      cases host.accounts.find addr <;> rfl
    · intro host addr codeOffset buffer
      exact host.copyCode_eq addr codeOffset buffer
    · intro host addr codeOffset buffer
      rfl
    · intro host addr codeOffset buffer
      simp only [ExampleHost.codeSource, host.copyCode_eq addr codeOffset buffer,
        ExampleHost.codeAt]
      cases host.accounts.find addr with
      | none => exact congrArg _ (codeWindow_nil codeOffset buffer).symm
      | some account => exact copyCodeChecked_eq account.code codeOffset buffer

end Qrvmc
