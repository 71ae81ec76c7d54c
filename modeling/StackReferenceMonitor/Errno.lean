import Mathlib.Data.Int.Notation

/-!
# Error numbers

The error numbers that the modules and the kernel return, negated.
-/

namespace StackReferenceMonitor

/-- Operation not permitted. -/
def EPERM : ℤ := 1

/-- No such file or directory. -/
def ENOENT : ℤ := 2

/-- Input/output error. -/
def EIO : ℤ := 5

/-- No such device or address. -/
def ENXIO : ℤ := 6

/-- Bad file number. -/
def EBADF : ℤ := 9

/-- Try again. -/
def EAGAIN : ℤ := 11

/-- Out of memory. -/
def ENOMEM : ℤ := 12

/-- Permission denied. -/
def EACCES : ℤ := 13

/-- Device or resource busy. -/
def EBUSY : ℤ := 16

/-- File exists. -/
def EEXIST : ℤ := 17

/-- Not a directory. -/
def ENOTDIR : ℤ := 20

/-- Is a directory. -/
def EISDIR : ℤ := 21

/-- Invalid argument. -/
def EINVAL : ℤ := 22

/-- Result not representable. -/
def ERANGE : ℤ := 34

/-- Function not implemented. -/
def ENOSYS : ℤ := 38

/-- Directory not empty. -/
def ENOTEMPTY : ℤ := 39

/-- Too many symbolic links encountered. -/
def ELOOP : ℤ := 40

end StackReferenceMonitor
