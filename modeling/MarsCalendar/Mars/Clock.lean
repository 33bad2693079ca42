import MarsCalendar.Mars.Instant

set_option autoImplicit false

/-! The clocks of Mars that run by Terrestrial Time: the Mars sol date, Coordinated Mars
Time as its fraction, and the mean solar time of the prime meridian. -/

namespace MarsCalendar

variable {α : Type} [Scalar α]

namespace Mars

/-- The Julian date in TT at which the Mars sol date is zero. -/
def solDateEpoch : α := 2405522.0028779

/-- The Julian date in TT at which mean solar time is midnight. -/
def meanSolarEpoch : α := 2440692.0

end Mars

namespace JulianDate

def marsSolDate (date : JulianDate .tt α) : α :=
  (date.value - Mars.solDateEpoch) / Mars.daysPerSol

def coordinatedMarsTime (date : JulianDate .tt α) : α :=
  let sols := date.marsSolDate
  sols - Scalar.floor sols

def meanSolarTime (date : JulianDate .tt α) : α :=
  let sols := (date.value - Mars.meanSolarEpoch) / Mars.daysPerSol
  (sols - Scalar.floor sols) * 1000.0

end JulianDate

namespace Mars.Instant

def terrestrial (instant : Instant α) : JulianDate .tt α :=
  ⟨instant.toJulian .tt⟩

def marsSolDate (instant : Instant α) : α :=
  instant.terrestrial.marsSolDate

def coordinatedMarsTime (instant : Instant α) : α :=
  instant.terrestrial.coordinatedMarsTime

def meanSolarTime (instant : Instant α) : α :=
  instant.terrestrial.meanSolarTime

end Mars.Instant

end MarsCalendar
