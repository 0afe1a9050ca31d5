import DrShadowStack.Constants
import DrShadowStack.Utilities

/-!
# Symbol information (`dr_print_sym.cpp`)

What DynamoRIO and drsyms answer is left open (`Lookups`). Of `drsym_lookup_address` it is assumed
that success fills in the whole `drsym_info_t`, that a symbol without line information leaves the
file and the line alone, and that every other result fills in nothing; what is not filled in is what
the uninitialised locals hold.
-/

namespace DrShadowStack.Sym

open Prog CString Utilities

variable {ptrSize : ℕ}

/-- `drsym_error_t`: the results that are told apart, and the number of any other. -/
inductive DrsymError
  | success
  | lineNotAvailable
  | symbolNotFound
  | other (number : ℕ)
deriving DecidableEq

/-- `drsym_info_t`, with its buffers read as strings. -/
structure DrsymInfo (ptrSize : ℕ) where
  name : CString
  startOffs : AppPc ptrSize
  file : CString
  line : ℕ
  lineOffs : ℕ

/-- `module_data_t` -/
structure ModuleData (ptrSize : ℕ) where
  fullPath : CString
  start : AppPc ptrSize
  preferredName : Option CString

/-- What the lookups answer and what uninitialised locals hold, at each operation of the process. -/
structure Lookups (ptrSize : ℕ) where
  lookupModule : ℕ → AppPc ptrSize → Option (ModuleData ptrSize)
  lookupAddress : ℕ → CString → AppPc ptrSize → DrsymError × DrsymInfo ptrSize
  uninitialised : ℕ → DrsymInfo ptrSize

/-- What `drsym_lookup_address` leaves in the structure it is given. -/
def DrsymInfo.fill (prior : DrsymInfo ptrSize) (symres : DrsymError) (found : DrsymInfo ptrSize) :
    DrsymInfo ptrSize :=
  match symres with
  | .success => found
  | .lineNotAvailable => { prior with name := found.name, startOffs := found.startOffs }
  | _ => prior

/-- The text about a symbol that was found. -/
def symbolInfo (addr : AppPc ptrSize) (data : ModuleData ptrSize) (symres : DrsymError)
    (sym : DrsymInfo ptrSize) : Text :=
  let modname := data.preferredName.getD (CString.lit "<noname>")
  bytesOf "Address: " ++ pointer addr ++ bytesOf "\n\t- Module: " ++ modname.chars ++
    bytesOf "\n\t- Symbol: " ++ sym.name.chars ++ bytesOf " + " ++
    Decimal.natChars (addr - data.start - sym.startOffs).toNat ++
    if symres = .lineNotAvailable then
      bytesOf "\n\t- File: " ++ sym.file.chars ++ bytesOf "\n\t- Line: " ++
        Decimal.natChars sym.line ++ bytesOf " + " ++ Decimal.natChars sym.lineOffs
    else bytesOf "\n\t- No line specific information available.\n"

/-- Print symbol information for what is located at `addr`; `description` is a description of what
the address points to. -/
def print (env : Env) (syms : Lookups ptrSize) (fuel : ℕ) (description : CString)
    (addr : AppPc ptrSize) : Prog State Unit := do
  message env fuel
    (bytesOf "Printing symbol information for " ++ description.chars ++ bytesOf "...")
  let locals ← nextOutcome syms.uninitialised
  let lookupModule ← nextOutcome syms.lookupModule
  match lookupModule addr with
  | none => logError env fuel (bytesOf "Unknown symbol for " ++ pointer addr)
  | some data => do
    let lookupAddress ← nextOutcome syms.lookupAddress
    let (symres, found) := lookupAddress data.fullPath (addr - data.start)
    match symres with
    | .other number =>
      logError env fuel (bytesOf "drsym_lookup_address() failed for " ++ pointer addr ++
        bytesOf "with error number: " ++ Decimal.natChars number)
    | .symbolNotFound =>
      logError env fuel (bytesOf "drsym_lookup_address() failed for " ++ pointer addr ++
        bytesOf " - symbol not found")
    | _ => do
      useStream env
      message env fuel (symbolInfo addr data symres (locals.fill symres found))

/-- Printing a symbol reports, whatever the lookups answer. -/
theorem print_spec {env : Env} {fuel : ℕ} (syms : Lookups ptrSize) (s₀ : State) (k : ℕ)
    (description : CString) (addr : AppPc ptrSize) :
    Triple (Inv env s₀ k) (print env syms fuel description addr) (fun _ => Inv env s₀ k)
      (Stopped env s₀ k (fuel < k + 4)) := by
  have h := spec env fuel
  refine .bind (h.message s₀ k _) fun _ => ?_
  refine .bind (nextOutcome_spec _) fun locals => ?_
  refine .bind (nextOutcome_spec _) fun lookupModule => ?_
  cases lookupModule addr with
  | none => exact h.logError s₀ k _
  | some data =>
    refine .bind (nextOutcome_spec _) fun lookupAddress => ?_
    generalize lookupAddress data.fullPath (addr - data.start) = result
    obtain ⟨symres, found⟩ := result
    cases symres with
    | other number => exact h.logError s₀ k _
    | symbolNotFound => exact h.logError s₀ k _
    | _ => exact .bind useStream_spec fun _ => h.message s₀ k _

end DrShadowStack.Sym
