import DrShadowStack.Common.CString

/-!
# Constants (`constants.hpp`, `message.hpp`)

The pointer size is a parameter throughout: the build is for x86 or x86-64, and `POINTER_SIZE` is
the `sizeof( void * )` of the build.
-/

namespace DrShadowStack

/-- A code address of the target program. -/
abbrev AppPc (ptrSize : ℕ) := BitVec (8 * ptrSize)

/-- The wildcard address matching value. -/
def WILDCARD : ℤ := -1

/-- `(app_pc) WILDCARD`: the wildcard as an entry of a shadow stack. -/
def wildcard {ptrSize : ℕ} : AppPc ptrSize := BitVec.ofInt (8 * ptrSize) WILDCARD

/-- The environment variable that names the socket. -/
def DR_SS_ENV_SOCK : CString := CString.lit "DR_SS_ENV_SOCK_VAR"

/-- The environment variable that stores the descriptor of the connected socket. -/
def DR_SS_ENV_FD : CString := CString.lit "DR_SS_ENV_FD_VAR"

/-- The number of the `execve` system call (`syscall.h`): x86 or x86-64 by the pointer size. -/
def SYS_execve (ptrSize : ℕ) : ℤ := if ptrSize = 4 then 11 else 59

end DrShadowStack
