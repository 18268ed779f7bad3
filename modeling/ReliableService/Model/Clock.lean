import Mathlib.Tactic.Common

/-!
# Deadlines

`struct timespec` and the two functions of `util.cpp` that every deadline of the
broker goes through.  The arithmetic on `tv_nsec` passes through a `double` in the
source; both operands are far below `2 ^ 53`, so it is exact.
-/

namespace ReliableService

structure Timespec where
  tvSec : Int
  tvNsec : Int
  deriving DecidableEq, Repr

/-- `time_add_ms`: the carry is taken on a strict comparison. -/
def timeAddMs (dst : Timespec) (ms : Int) : Timespec :=
  let tvSec := dst.tvSec + ms.tdiv 1000
  let tvNsec := dst.tvNsec + ms.tmod 1000 * 1000000
  if tvNsec > 1000000000 then ⟨tvSec + 1, tvNsec - 1000000000⟩ else ⟨tvSec, tvNsec⟩

/-- `time_cmp`: `1`, `-1` or `0`. -/
def timeCmp (t₁ t₂ : Timespec) : Int :=
  if t₁.tvSec > t₂.tvSec then 1
  else if t₁.tvSec < t₂.tvSec then -1
  else if t₁.tvNsec > t₂.tvNsec then 1
  else if t₁.tvNsec < t₂.tvNsec then -1
  else 0

end ReliableService
