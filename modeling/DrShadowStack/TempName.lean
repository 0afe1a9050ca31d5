import Mathlib.Data.List.Forall2
import DrShadowStack.ExecChain

/-!
# The file of the socket (`temp_name.cpp`, `quick_socket.cpp`, `start_external_client`)

The server makes up a name in the directory for temporary files and binds its socket to it; the
client finds the name in its environment and connects to it. On both sides `strcpy` copies the name
into an array of a fixed size. No step looks at the length of the directory's path, or for a `%` in
it, which `unique_path` would replace.
-/

namespace DrShadowStack

/-! ## Sockets -/

namespace QS

/-- The size of `sockaddr_un::sun_path`. -/
def SUN_PATH_SIZE : ℕ := 108

/-- The array `sun_path`. -/
structure SunPath where
  bytes : List UInt8
  length_bytes : bytes.length = SUN_PATH_SIZE

/-- An array of zeros. -/
def SunPath.zeros : SunPath := ⟨List.replicate SUN_PATH_SIZE 0, List.length_replicate⟩

/-- The name that the kernel reads from the array. -/
def SunPath.name (path : SunPath) : List UInt8 := path.bytes.takeWhile (· ≠ 0)

theorem SunPath.length_copied (path : SunPath) {src : CString}
    (h : src.strlen + 1 ≤ SUN_PATH_SIZE) :
    (src.chars ++ 0 :: path.bytes.drop (src.strlen + 1)).length = SUN_PATH_SIZE := by
  have hlength := path.length_bytes
  simp only [CString.strlen, List.length_append, List.length_cons, List.length_drop] at h ⊢
  omega

/-- `strcpy` into the array: the string and its terminator over what is there. `none` is a write
behind the end of the array. -/
def strcpy (path : SunPath) (src : CString) : Option SunPath :=
  if h : src.strlen + 1 ≤ SUN_PATH_SIZE then
    some ⟨src.chars ++ 0 :: path.bytes.drop (src.strlen + 1), path.length_copied h⟩
  else none

/-- How a function that sets up a socket ends. -/
inductive End (α : Type)
  | assertFailed
  | outOfBounds
  | returned (a : α)

/-- What the caller gets: nothing where the process stops, and `none` where a write has left the
array. -/
def End.outcome {α : Type} : End α → Option (Option α)
  | .assertFailed => none
  | .outOfBounds => some none
  | .returned a => some (some a)

/-- What the kernel answers to the server. -/
structure ServerAnswers where
  socket : ℤ
  binds : Bool
  listens : Bool

/-- Create a unix server with name `fname`; the address is on the stack, which holds `garbage`. -/
def makeUnixServer (garbage : SunPath) (fname : CString) : Option SunPath := strcpy garbage fname

/-- Create a unix socket, and a server for it: the descriptor, and the address it is bound to. -/
def createServer (answers : ServerAnswers) (garbage : SunPath) (fname : CString) :
    End (ℤ × SunPath) :=
  if answers.socket = -1 then .assertFailed
  else
    match makeUnixServer garbage fname with
    | none => .outOfBounds
    | some server =>
      if answers.binds ∧ answers.listens then .returned (answers.socket, server)
      else .assertFailed

/-- Create a client for a unix socket: the descriptor, and the address it is connected to. -/
def createClient (answers : ExternalSS.Answers) (garbage : SunPath) (sockName : CString) :
    End (ℤ × SunPath) :=
  if answers.socket = -1 then .assertFailed
  else
    match makeUnixServer garbage sockName with
    | none => .outOfBounds
    | some server =>
      if answers.connects then .returned (answers.socket, server) else .assertFailed

section Sockets

variable {garbage path : SunPath} {name : CString}

theorem strcpy_eq_none_iff : strcpy garbage name = none ↔ SUN_PATH_SIZE < name.strlen + 1 := by
  rw [strcpy]
  split
  · next h => simp [Nat.not_lt.mpr h]
  · next h => simp [Nat.lt_of_not_le h]

/-- The kernel reads the name that was copied. -/
theorem name_of_strcpy (h : strcpy garbage name = some path) : path.name = name.chars := by
  rw [strcpy] at h
  split at h
  · obtain rfl := Option.some.inj h
    have hall : ∀ c ∈ name.chars, decide (c ≠ 0) = true := fun c hc =>
      decide_eq_true fun heq => name.noNul (heq ▸ hc)
    rw [SunPath.name, List.takeWhile_append_of_pos hall, List.takeWhile_cons_of_neg (by simp),
      List.append_nil]
  · cases h

/-- Where the name fits, the client is created as `ExternalSS::setup` has it. -/
theorem createClient_eq (h : strcpy garbage name = some path) (answers : ExternalSS.Answers) :
    createClient answers garbage name =
      match ExternalSS.createClient answers with
      | none => .assertFailed
      | some fd => .returned (fd, path) := by
  unfold createClient makeUnixServer ExternalSS.createClient
  rw [h]
  by_cases hsocket : answers.socket = -1
  · simp [hsocket]
  · cases hconnects : answers.connects <;> simp [hsocket]

/-- A name that does not fit is copied all the same. -/
theorem createServer_outOfBounds_iff {answers : ServerAnswers} :
    createServer answers garbage name = .outOfBounds ↔
      answers.socket ≠ -1 ∧ SUN_PATH_SIZE < name.strlen + 1 := by
  unfold createServer makeUnixServer
  rw [← @strcpy_eq_none_iff garbage name]
  by_cases hsocket : answers.socket = -1
  · simp [hsocket]
  · cases strcpy garbage name with
    | none => simp [hsocket]
    | some path => by_cases h : answers.binds ∧ answers.listens <;> simp [hsocket, h]

@[inherit_doc createServer_outOfBounds_iff]
theorem createClient_outOfBounds_iff {answers : ExternalSS.Answers} :
    createClient answers garbage name = .outOfBounds ↔
      answers.socket ≠ -1 ∧ SUN_PATH_SIZE < name.strlen + 1 := by
  unfold createClient makeUnixServer
  rw [← @strcpy_eq_none_iff garbage name]
  by_cases hsocket : answers.socket = -1
  · simp [hsocket]
  · cases strcpy garbage name with
    | none => simp [hsocket]
    | some path => cases hconnects : answers.connects <;> simp [hsocket]

theorem name_of_createServer {answers : ServerAnswers} {fd : ℤ}
    (h : createServer answers garbage name = .returned (fd, path)) : path.name = name.chars := by
  unfold createServer makeUnixServer at h
  split at h
  · cases h
  · split at h
    · cases h
    · next server hcopy =>
      split at h
      · obtain rfl := (Prod.mk.inj (End.returned.inj h)).2
        exact name_of_strcpy hcopy
      · cases h

theorem fits_of_createServer {answers : ServerAnswers} {fd : ℤ}
    (h : createServer answers garbage name = .returned (fd, path)) :
    name.strlen + 1 ≤ SUN_PATH_SIZE := by
  by_contra hlong
  have hcopy : makeUnixServer garbage name = none := strcpy_eq_none_iff.mpr (by omega)
  rw [createServer, hcopy] at h
  split at h <;> cases h

theorem name_of_createClient {answers : ExternalSS.Answers} {fd : ℤ}
    (h : createClient answers garbage name = .returned (fd, path)) : path.name = name.chars := by
  unfold createClient makeUnixServer at h
  split at h
  · cases h
  · split at h
    · cases h
    · next server hcopy =>
      split at h
      · obtain rfl := (Prod.mk.inj (End.returned.inj h)).2
        exact name_of_strcpy hcopy
      · cases h

end Sockets

end QS

/-! ## The name -/

/-- A character that stands for a hexadecimal digit. -/
def IsHexDigit (c : UInt8) : Prop := 48 ≤ c ∧ c ≤ 57 ∨ 65 ≤ c ∧ c ≤ 70 ∨ 97 ≤ c ∧ c ≤ 102

instance (c : UInt8) : Decidable (IsHexDigit c) := inferInstanceAs (Decidable (_ ∨ _))

/-- What becomes of a character of the model: each `%` is replaced by a digit. -/
def Replaced (c d : UInt8) : Prop := if c = 37 then IsHexDigit d else d = c

instance (c d : UInt8) : Decidable (Replaced c d) :=
  inferInstanceAs (Decidable (if c = 37 then IsHexDigit d else d = c))

/-- `unique_path` replaces every `%` of the model by a hexadecimal digit and leaves all other
characters alone. -/
def ReplacesPercents (uniquePath : CString → Option CString) : Prop :=
  ∀ model path, uniquePath model = some path → List.Forall₂ Replaced model.chars path.chars

/-- `std::string( 50, '%' )` -/
def percents : CString := ⟨List.replicate 50 37, by decide⟩

/-- The model to be used. -/
def tempModel (tmpDir : CString) : CString := tmpDir ++ CString.lit "/" ++ percents

/-- Return a non-existent filename in `tmpDir`, or `none` where `unique_path` throws. -/
def tempName (uniquePath : CString → Option CString) (tmpDir : CString) : Option CString :=
  uniquePath (tempModel tmpDir)

/-- The name is one of a file in `tmpDir`, with 50 hexadecimal digits. -/
def LiesIn (tmpDir name : CString) : Prop :=
  ∃ digits, digits.length = 50 ∧ (∀ d ∈ digits, IsHexDigit d) ∧
    name.chars = tmpDir.chars ++ 47 :: digits

/-- The name lies in `tmpDir`, neither the server nor the client copies it out of bounds, and both
address the file of this name. The client gets the name from the environment that `start_program`
makes. -/
structure ServerAndClientMeet (tmpDir name : CString) : Prop where
  lies : LiesIn tmpDir name
  server : ∀ answers garbage, QS.createServer answers garbage name ≠ .outOfBounds
  client : ∀ environ sockName, (startProgram environ name).getenv DR_SS_ENV_SOCK = some sockName →
    ∀ answers garbage, QS.createClient answers garbage sockName ≠ .outOfBounds
  same : ∀ environ sockName, (startProgram environ name).getenv DR_SS_ENV_SOCK = some sockName →
    ∀ answers garbage fd path answers' garbage' fd' path',
      QS.createServer answers garbage name = .returned (fd, path) →
      QS.createClient answers' garbage' sockName = .returned (fd', path') →
      path.name = name.chars ∧ path'.name = name.chars

section Names

variable {uniquePath : CString → Option CString} {tmpDir name : CString}

theorem chars_tempModel (tmpDir : CString) :
    (tempModel tmpDir).chars = tmpDir.chars ++ 47 :: List.replicate 50 37 := by
  simp [tempModel, percents, CString.lit, CString.bytesOf]

/-- The client gets the server's name. -/
theorem getenv_sock_startProgram (environ : Environ) (name : CString) :
    (startProgram environ name).getenv DR_SS_ENV_SOCK = some name := by
  rw [startProgram, ExternalSS.getenv_sock_setenv, Environ.getenv_setenv]

theorem strlen_of_tempName (hunique : ReplacesPercents uniquePath)
    (hname : tempName uniquePath tmpDir = some name) : name.strlen = tmpDir.strlen + 51 := by
  have hlength := (hunique _ _ hname).length_eq
  rw [chars_tempModel, List.length_append, List.length_cons, List.length_replicate] at hlength
  exact hlength.symm

theorem eq_of_replaced {l l' : List UInt8} (h : List.Forall₂ Replaced l l') (hl : 37 ∉ l) :
    l' = l := by
  induction h with
  | nil => rfl
  | @cons c d l l' hcd _ ih =>
    obtain ⟨hc, hrest⟩ := not_or.mp (mt List.mem_cons.mpr hl)
    rw [Replaced, if_neg (Ne.symm hc)] at hcd
    rw [hcd, ih hrest]

theorem digits_of_replaced {n : ℕ} {l : List UInt8}
    (h : List.Forall₂ Replaced (List.replicate n 37) l) : ∀ d ∈ l, IsHexDigit d := by
  induction n generalizing l with
  | zero =>
    cases h
    simp
  | succ n ih =>
    obtain ⟨d, rest, hd, hrest, rfl⟩ := List.forall₂_cons_left_iff.mp h
    exact List.forall_mem_cons.mpr ⟨hd, ih hrest⟩

/-- The name follows the directory where its path holds no placeholder. -/
theorem liesIn_iff (hunique : ReplacesPercents uniquePath)
    (hname : tempName uniquePath tmpDir = some name) : LiesIn tmpDir name ↔ 37 ∉ tmpDir.chars := by
  have hreplaced := hunique _ _ hname
  rw [chars_tempModel] at hreplaced
  constructor
  · rintro ⟨digits, -, -, hchars⟩ hpercent
    rw [hchars] at hreplaced
    have htake := List.forall₂_take tmpDir.chars.length hreplaced
    rw [List.take_left, List.take_left, List.forall₂_same] at htake
    exact absurd (htake 37 hpercent) (by decide)
  · intro hpercent
    have htake := List.forall₂_take tmpDir.chars.length hreplaced
    have hdrop := List.forall₂_drop tmpDir.chars.length hreplaced
    rw [List.take_left] at htake
    rw [List.drop_left] at hdrop
    obtain ⟨slash, digits, hslash, hdigits, hrest⟩ := List.forall₂_cons_left_iff.mp hdrop
    obtain rfl : slash = 47 := hslash
    refine ⟨digits, ?_, digits_of_replaced hdigits, ?_⟩
    · rw [← hdigits.length_eq, List.length_replicate]
    · have hsplit := (List.take_append_drop tmpDir.chars.length name.chars).symm
      rwa [eq_of_replaced htake hpercent, hrest] at hsplit

/-- Both copies stay in bounds where the name and its terminator fit. -/
theorem inBounds_iff :
    (∀ answers garbage, QS.createServer answers garbage name ≠ .outOfBounds) ↔
      name.strlen + 1 ≤ QS.SUN_PATH_SIZE := by
  simp only [ne_eq, QS.createServer_outOfBounds_iff, not_and, Nat.not_lt]
  constructor
  · intro h
    exact h ⟨3, true, true⟩ .zeros (by decide)
  · exact fun h _ _ _ => h

end Names

/-- **Server and client meet at a file in the directory exactly where its path holds no `%` and is
short enough.** -/
theorem serverAndClientMeet_iff {uniquePath : CString → Option CString} {tmpDir name : CString}
    (hunique : ReplacesPercents uniquePath) (hname : tempName uniquePath tmpDir = some name) :
    ServerAndClientMeet tmpDir name ↔ 37 ∉ tmpDir.chars ∧ tmpDir.strlen ≤ 56 := by
  have hfits : name.strlen + 1 ≤ QS.SUN_PATH_SIZE ↔ tmpDir.strlen ≤ 56 := by
    rw [strlen_of_tempName hunique hname, QS.SUN_PATH_SIZE]
    omega
  constructor
  · intro h
    exact ⟨(liesIn_iff hunique hname).mp h.lies, hfits.mp (inBounds_iff.mp h.server)⟩
  · rintro ⟨hpercent, hshort⟩
    have hbound := hfits.mpr hshort
    refine ⟨(liesIn_iff hunique hname).mpr hpercent, inBounds_iff.mpr hbound, ?_, ?_⟩
    · intro environ sockName hsock answers garbage hout
      obtain rfl := Option.some.inj ((getenv_sock_startProgram environ name).symm.trans hsock)
      exact absurd (QS.createClient_outOfBounds_iff.mp hout).2 (Nat.not_lt.mpr hbound)
    · intro environ sockName hsock answers garbage fd path answers' garbage' fd' path' hs hc
      obtain rfl := Option.some.inj ((getenv_sock_startProgram environ name).symm.trans hsock)
      exact ⟨QS.name_of_createServer hs, QS.name_of_createClient hc⟩

/-- A `unique_path` whose digits are all 0. -/
def zeroDigits (model : CString) : Option CString :=
  some ⟨model.chars.map fun c => if c = 37 then 48 else c, by
    intro hmem
    obtain ⟨c, hc, heq⟩ := List.mem_map.mp hmem
    split at heq
    · exact absurd heq (by decide)
    · exact model.noNul (heq ▸ hc)⟩

theorem replacesPercents_zeroDigits : ReplacesPercents zeroDigits := by
  intro model path hpath
  obtain rfl := Option.some.inj hpath
  refine List.forall₂_map_right_iff.mpr (List.forall₂_same.mpr fun c _ => ?_)
  unfold Replaced
  split
  · decide
  · rfl

theorem serverAndClientMeet_iff_tmp :
    ServerAndClientMeet (CString.lit "/tmp")
        (CString.lit "/tmp/00000000000000000000000000000000000000000000000000") ↔
      37 ∉ (CString.lit "/tmp").chars ∧ (CString.lit "/tmp").strlen ≤ 56 :=
  serverAndClientMeet_iff replacesPercents_zeroDigits rfl

/-- A directory with a path of 57 characters. -/
def longTmpDir : CString := ⟨47 :: List.replicate 56 97, by decide⟩

/-- In `/tmp/50%` the name lies in another directory, and under a path of 57 characters it does not
fit. -/
theorem not_serverAndClientMeet_percent :
    (∃ name, tempName zeroDigits (CString.lit "/tmp/50%") = some name ∧
      name.chars.take 8 = CString.bytesOf "/tmp/500" ∧
      ¬ServerAndClientMeet (CString.lit "/tmp/50%") name) ∧
    ∃ name, tempName zeroDigits longTmpDir = some name ∧
      (∀ garbage, QS.createServer ⟨3, true, true⟩ garbage name = .outOfBounds) ∧
      ¬ServerAndClientMeet longTmpDir name := by
  refine ⟨⟨_, rfl, by decide, fun h => ?_⟩, _, rfl, fun garbage => ?_, fun h => ?_⟩
  · obtain ⟨digits, -, -, hchars⟩ := h.lies
    have htake := congrArg (List.take 8) hchars
    rw [List.take_append_of_le_length (by decide)] at htake
    exact absurd htake (by decide)
  · exact QS.createServer_outOfBounds_iff.mpr ⟨by decide, by decide⟩
  · exact absurd (inBounds_iff.mp h.server) (by decide)

end DrShadowStack
