import CpioArchive.Text.Numeral
/-!
# Time spans

A time span in whole seconds and nanoseconds, and its two written forms: an exact one, in the
largest unit of seconds, milliseconds, microseconds and nanoseconds that it reaches, and a coarse
one in hours, minutes and seconds.
-/

namespace CpioArchive

/-- A time span. -/
structure Duration where
  seconds : Nat
  nanoseconds : Nat
  deriving DecidableEq

namespace Duration

/-- No time at all. -/
def zero : Duration := ⟨0, 0⟩

/-- The span of so many seconds and nanoseconds; full seconds are carried over. -/
def ofParts (seconds nanoseconds : Nat) : Duration :=
  ⟨seconds + nanoseconds / 1000000000, nanoseconds % 1000000000⟩

/-- The most seconds that can be counted. -/
def mostSeconds : Nat := 0xFFFFFFFFFFFFFFFF

/-- The span of so many seconds and nanoseconds, if its seconds can be counted. -/
def ofParts? (seconds nanoseconds : Nat) : Option Duration :=
  let span := ofParts seconds nanoseconds
  if span.seconds ≤ mostSeconds then some span else none

/-- The whole milliseconds of a span. -/
def milliseconds (d : Duration) : Nat := d.seconds * 1000 + d.nanoseconds / 1000000

/-- A whole number and a fraction of `places` decimal places, without trailing zeros and without
the point when nothing is left of the fraction. -/
def decimalText (whole fraction places : Nat) : String :=
  let digits := ((Text.zeroPadded places fraction).toList.reverse.dropWhile (· == '0')).reverse
  if digits.isEmpty then Text.decimal whole
  else Text.decimal whole ++ "." ++ String.ofList digits

/-- The exact form, such as `61.5s`, `1.5ms`, `2µs` and `0ns`. -/
def exactText (d : Duration) : String :=
  if 0 < d.seconds then decimalText d.seconds d.nanoseconds 9 ++ "s"
  else if 1000000 ≤ d.nanoseconds then
    decimalText (d.nanoseconds / 1000000) (d.nanoseconds % 1000000) 6 ++ "ms"
  else if 1000 ≤ d.nanoseconds then
    decimalText (d.nanoseconds / 1000) (d.nanoseconds % 1000) 3 ++ "µs"
  else Text.decimal d.nanoseconds ++ "ns"

/-- The coarse form, such as `1h0m`, `1m30s` and `59s`. -/
def coarseText (d : Duration) : String :=
  if 3600 ≤ d.seconds then
    Text.decimal (d.seconds / 3600) ++ "h" ++ Text.decimal (d.seconds % 3600 / 60) ++ "m"
  else if 60 ≤ d.seconds then
    Text.decimal (d.seconds / 60) ++ "m" ++ Text.decimal (d.seconds % 60) ++ "s"
  else Text.decimal d.seconds ++ "s"

end Duration

end CpioArchive
