import Supervisor.JobDomain
import Supervisor.Rfc3339Reading

namespace Supervisor

/-- A time that the program stores, of a year from 0 to 9999 -/
abbrev StoredTime := { t : Instant // Rfc3339.hasFourDigits t = true }

def dtToStr (t : Instant) : List Char := Rfc3339.toRfc3339 t

/-- Without the text of the error -/
def strToDt (text : List Char) : Option Instant := Rfc3339.parseFromRfc3339 text

/-- What a comparison of two columns compares -/
def columnBytes (t : Instant) : List UInt8 := Rfc3339.utf8 (dtToStr t)

theorem dtToStr_lt_iff (t t' : StoredTime) : dtToStr t < dtToStr t' ↔ t < t' :=
  Rfc3339.lt_iff t.property t'.property

/-- A stored time is read back, and the columns are in the order of their times. -/
theorem stored_times_ordered :
    (∀ t : StoredTime, strToDt (dtToStr t) = some t.val) ∧
      ∀ t t' : StoredTime, columnBytes t < columnBytes t' ↔ t < t' := by
  refine ⟨fun t => Rfc3339.parse_toRfc3339 t.property, fun t t' => ?_⟩
  calc columnBytes t < columnBytes t' ↔ dtToStr t < dtToStr t' :=
        Rfc3339.utf8_lt_iff (Rfc3339.isAscii_toRfc3339 t.property)
          (Rfc3339.isAscii_toRfc3339 t'.property)
    _ ↔ t < t' := dtToStr_lt_iff t t'

end Supervisor
