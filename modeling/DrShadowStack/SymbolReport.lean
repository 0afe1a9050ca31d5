import DrShadowStack.Common.TwoRuns
import DrShadowStack.DrPrintSym

/-!
# What the report of an address says

The buffers that `Sym::print` hands to drsyms are uninitialised, and a symbol without line
information leaves the file and the line in them as they are. The code prints the file and the line
in just this case: the test `symres == DRSYM_ERROR_LINE_NOT_AVAILABLE` is the wrong way round.
-/

namespace DrShadowStack.Sym

open Prog CString TwoRuns Utilities

variable {ptrSize : ℕ}

/-- What the lookups find out about an address. -/
inductive LookupResult (ptrSize : ℕ)
  | noModule
  | answered (data : ModuleData ptrSize) (symres : DrsymError) (found : DrsymInfo ptrSize)

/-- Look up the module of an address, and the symbol in it. -/
def lookup (syms : Lookups ptrSize) (addr : AppPc ptrSize) :
    Prog State (LookupResult ptrSize) := do
  let lookupModule ← nextOutcome syms.lookupModule
  match lookupModule addr with
  | none => pure .noModule
  | some data => do
    let lookupAddress ← nextOutcome syms.lookupAddress
    let (symres, found) := lookupAddress data.fullPath (addr - data.start)
    pure (.answered data symres found)

/-- What is printed, and on which way. -/
inductive Report
  | message (text : Text)
  /-- Through a stream of its own. -/
  | symbol (text : Text)
  | error (text : Text)

/-- Print it. -/
def Report.perform (env : Env) (fuel : ℕ) : Report → Prog State Unit
  | .message text => Utilities.message env fuel text
  | .symbol text => do
    useStream env
    Utilities.message env fuel text
  | .error text => logError env fuel text

/-- What a call of `print` says first. -/
def announcement (description : CString) : Report :=
  .message (bytesOf "Printing symbol information for " ++ description.chars ++ bytesOf "...")

/-- What it says then, if the locals hold `locals` before the lookup. -/
def report (addr : AppPc ptrSize) (result : LookupResult ptrSize) (locals : DrsymInfo ptrSize) :
    Report :=
  match result with
  | .noModule => .error (bytesOf "Unknown symbol for " ++ pointer addr)
  | .answered _ (.other number) _ =>
    .error (bytesOf "drsym_lookup_address() failed for " ++ pointer addr ++
      bytesOf "with error number: " ++ Decimal.natChars number)
  | .answered _ .symbolNotFound _ =>
    .error (bytesOf "drsym_lookup_address() failed for " ++ pointer addr ++
      bytesOf " - symbol not found")
  | .answered data symres found => .symbol (symbolInfo addr data symres (locals.fill symres found))

/-- `print` is its two reports. -/
theorem print_eq (env : Env) (syms : Lookups ptrSize) (fuel : ℕ) (description : CString)
    (addr : AppPc ptrSize) :
    print env syms fuel description addr = (do
      (announcement description).perform env fuel
      let locals ← nextOutcome syms.uninitialised
      let result ← lookup syms addr
      (report addr result locals).perform env fuel) := by
  unfold print lookup
  simp only [announcement, Report.perform, bind_assoc]
  congr 1
  funext _
  congr 1
  funext locals
  congr 1
  funext lookupModule
  cases lookupModule addr with
  | none => rfl
  | some data =>
    simp only [bind_assoc, pure_bind]
    congr 1
    funext lookupAddress
    generalize lookupAddress data.fullPath (addr - data.start) = result
    obtain ⟨symres, found⟩ := result
    cases symres <;> rfl

/-! ## A sequence of calls -/

/-- A call of `print`, with what its lookups find out. -/
structure Call (ptrSize : ℕ) where
  description : CString
  addr : AppPc ptrSize
  result : LookupResult ptrSize

/-- What a sequence of calls says; each comes with the prior contents of its buffers and fields. -/
def said (ws : List (Call ptrSize × DrsymInfo ptrSize)) : List Report :=
  ws.flatMap fun w => [announcement w.1.description, report w.1.addr w.1.result w.2]

/-- The part of the text about a symbol that does not depend on line information. -/
def symbolText (addr : AppPc ptrSize) (data : ModuleData ptrSize) (found : DrsymInfo ptrSize) :
    Text :=
  let modname := (data.preferredName.map CString.chars).getD (bytesOf "<noname>")
  bytesOf "Address: " ++ pointer addr ++ bytesOf "\n\t- Module: " ++ modname ++
    bytesOf "\n\t- Symbol: " ++ found.name.chars ++ bytesOf " + " ++
    Decimal.natChars (addr - data.start - found.startOffs).toNat

/-- The text of a file and a line. -/
def lineText (file : CString) (line lineOffs : ℕ) : Text :=
  bytesOf "\n\t- File: " ++ file.chars ++ bytesOf "\n\t- Line: " ++ Decimal.natChars line ++
    bytesOf " + " ++ Decimal.natChars lineOffs

/-- The report is one of a symbol, with this file and line. -/
def Call.Prints (c : Call ptrSize) (locals : DrsymInfo ptrSize) (file : CString)
    (line lineOffs : ℕ) : Prop :=
  ∃ data symres found, c.result = .answered data symres found ∧
    report c.addr c.result locals =
      .symbol (symbolText c.addr data found ++ lineText file line lineOffs)

/-- What is said is the same for all prior contents, and a file and a line are printed exactly where
drsym found them. -/
structure OwnReports (calls : List (Call ptrSize)) : Prop where
  same : ∀ ws ws' : List (Call ptrSize × DrsymInfo ptrSize), ws.map Prod.fst = calls →
    ws'.map Prod.fst = calls → said ws = said ws'
  found : ∀ c ∈ calls, ∀ data found, c.result = .answered data .success found →
    ∀ locals, c.Prints locals found.file found.line found.lineOffs
  onlyFound : ∀ c ∈ calls, ∀ locals file line lineOffs, c.Prints locals file line lineOffs →
    ∃ data found, c.result = .answered data .success found

/-- The address is in no module, or its lookup failed. -/
def Call.NoSymbol (c : Call ptrSize) : Prop :=
  ∀ data symres found, c.result = .answered data symres found →
    symres ≠ .success ∧ symres ≠ .lineNotAvailable

section Reports

variable {calls : List (Call ptrSize)} {c : Call ptrSize} {data : ModuleData ptrSize}
  {found locals : DrsymInfo ptrSize} {addr : AppPc ptrSize} {result : LookupResult ptrSize}

/-- The report of a symbol whose line was found says that there is none. -/
theorem report_success (addr : AppPc ptrSize) (data : ModuleData ptrSize)
    (found locals : DrsymInfo ptrSize) :
    report addr (.answered data .success found) locals =
      .symbol (symbolText addr data found ++
        bytesOf "\n\t- No line specific information available.\n") := by
  obtain ⟨fullPath, start, preferredName⟩ := data
  cases preferredName <;> rfl

/-- The report of a symbol without a line prints the file and the line of the locals. -/
theorem report_lineNotAvailable (addr : AppPc ptrSize) (data : ModuleData ptrSize)
    (found locals : DrsymInfo ptrSize) :
    report addr (.answered data .lineNotAvailable found) locals =
      .symbol (symbolText addr data found ++
        lineText locals.file locals.line locals.lineOffs) := by
  obtain ⟨fullPath, start, preferredName⟩ := data
  cases preferredName <;> rfl

theorem noLine_ne_lineText (file : CString) (line lineOffs : ℕ) :
    bytesOf "\n\t- No line specific information available.\n" ≠ lineText file line lineOffs := by
  intro h
  have htake := congrArg (List.take 6) h
  unfold lineText at htake
  simp only [List.append_assoc] at htake
  rw [List.take_append_of_le_length (by decide)] at htake
  exact absurd htake (by decide)

/-- Only a symbol without a line makes the report depend on the locals. -/
theorem report_eq_iff (addr : AppPc ptrSize) (result : LookupResult ptrSize) :
    (∀ locals locals', report addr result locals = report addr result locals') ↔
      ∀ data found, result ≠ .answered data .lineNotAvailable found := by
  constructor
  · rintro h data found rfl
    have hfiles := h { found with file := CString.lit "a" } { found with file := CString.lit "b" }
    rw [report_lineNotAvailable, report_lineNotAvailable] at hfiles
    have hline := List.append_cancel_left (Report.symbol.inj hfiles)
    unfold lineText at hline
    simp only [List.append_assoc, List.append_cancel_left_eq] at hline
    exact absurd (List.cons.inj hline).1 (by decide)
  · intro h locals locals'
    rcases result with _ | ⟨data, symres, found⟩
    · rfl
    · cases symres with
      | lineNotAvailable => exact absurd rfl (h data found)
      | _ => rfl

/-- What is said is the same for all prior contents where each report is. -/
theorem said_same_iff :
    (∀ ws ws' : List (Call ptrSize × DrsymInfo ptrSize), ws.map Prod.fst = calls →
        ws'.map Prod.fst = calls → said ws = said ws') ↔
      ∀ c ∈ calls, ∀ locals locals', report c.addr c.result locals =
        report c.addr c.result locals' := by
  have hinput : Function.Surjective (Prod.fst : Call ptrSize × DrsymInfo ptrSize → _) :=
    fun c => ⟨(c, ⟨c.description, 0, c.description, 0, 0⟩), rfl⟩
  refine (sameOutput_iff hinput fun _ _ _ => rfl).trans (forall₂_congr fun c _ => ?_)
  constructor
  · intro h locals locals'
    simpa using h (c, locals) (c, locals') rfl rfl
  · rintro h ⟨d, locals⟩ ⟨d', locals'⟩ rfl rfl
    simpa using h locals locals'

/-- Without a symbol nothing is printed of a file and a line. -/
theorem Call.NoSymbol.not_prints (h : c.NoSymbol) (locals : DrsymInfo ptrSize) (file : CString)
    (line lineOffs : ℕ) : ¬c.Prints locals file line lineOffs := by
  rintro ⟨data, symres, found, hresult, hreport⟩
  obtain ⟨hsuccess, hline⟩ := h data symres found hresult
  rw [hresult] at hreport
  cases symres with
  | success => exact hsuccess rfl
  | lineNotAvailable => exact hline rfl
  | symbolNotFound => cases hreport
  | other number => cases hreport

end Reports

/-- **The reports are the addresses' own exactly where drsym finds no symbol**: of those that it
finds with a line the line is not printed, and of those without a line another is. -/
theorem ownReports_iff {calls : List (Call ptrSize)} :
    OwnReports calls ↔ ∀ c ∈ calls, c.NoSymbol := by
  constructor
  · intro h c hc data symres found hresult
    constructor
    · rintro rfl
      obtain ⟨data', symres', found', hresult', hreport⟩ := h.found c hc data found hresult found
      obtain ⟨rfl, rfl, rfl⟩ := LookupResult.answered.inj (hresult.symm.trans hresult')
      rw [hresult, report_success] at hreport
      exact noLine_ne_lineText _ _ _ (List.append_cancel_left (Report.symbol.inj hreport))
    · rintro rfl
      have hprints : c.Prints found found.file found.line found.lineOffs :=
        ⟨data, _, found, hresult, by rw [hresult, report_lineNotAvailable]⟩
      obtain ⟨data', found', hsuccess⟩ := h.onlyFound c hc _ _ _ _ hprints
      cases hresult.symm.trans hsuccess
  · intro h
    refine ⟨said_same_iff.mpr fun c hc => (report_eq_iff _ _).mpr ?_, ?_, ?_⟩
    · intro data found hresult
      exact (h c hc data _ found hresult).2 rfl
    · intro c hc data found hresult
      exact absurd rfl (h c hc data _ found hresult).1
    · intro c hc locals file line lineOffs hprints
      exact absurd hprints ((h c hc).not_prints locals file line lineOffs)

/-- What drsym finds of an address in libc. -/
def libcFound : DrsymInfo 8 :=
  ⟨CString.lit "__libc_start_main", 0x20740, CString.lit "../csu/libc-start.c", 325, 0⟩

/-- The call for it. -/
def libcCall : Call 8 :=
  ⟨CString.lit "top of the stack", 0x7f0cb88e7830, .answered
    ⟨CString.lit "/lib/libc.so.6", 0x7f0cb88c7000, some (CString.lit "libc.so.6")⟩ .success
    libcFound⟩

/-- The call for a function that has no line information. -/
def winCall : Call 8 :=
  ⟨CString.lit "address returned to", 0x4005f6, .answered
    ⟨CString.lit "./hacked_toy64", 0x400000, some (CString.lit "hacked_toy64")⟩ .lineNotAvailable
    ⟨CString.lit "win", 0x5f6, CString.lit "unset", 0, 0⟩⟩

/-- The report of the one call is without the line that was found, and the other prints it if its
locals are where those of the first call were. -/
theorem not_ownReports_hacked :
    report libcCall.addr libcCall.result libcFound =
        .symbol (symbolText libcCall.addr
            ⟨CString.lit "/lib/libc.so.6", 0x7f0cb88c7000, some (CString.lit "libc.so.6")⟩
            libcFound ++
          bytesOf "\n\t- No line specific information available.\n") ∧
      winCall.Prints libcFound (CString.lit "../csu/libc-start.c") 325 0 ∧
      ¬OwnReports [libcCall, winCall] := by
  have hprints : winCall.Prints libcFound (CString.lit "../csu/libc-start.c") 325 0 :=
    ⟨_, _, _, rfl, rfl⟩
  refine ⟨rfl, hprints, fun h => ?_⟩
  obtain ⟨data, found, hsuccess⟩ := h.onlyFound winCall (by simp) _ _ _ _ hprints
  cases hsuccess

end DrShadowStack.Sym
