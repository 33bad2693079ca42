import MarsCalendar.Earth.Conversion
import MarsCalendar.Mars.Date

set_option autoImplicit false

/-! An instant of Mars: a running count of sols since the calendar's epoch, which is
1609-03-12T19:19:06 UTC. The module relates it to Earth's counts of time and to the
dates of the calendar. -/

namespace MarsCalendar.Mars

open Earth (Moment)

structure Instant (α : Type) where
  sols : α
  deriving DecidableEq, Repr

def epoch : Civil.Reading :=
  ⟨⟨1609, 3, 12⟩, ⟨19, 19, 6, 0⟩, none⟩

variable {α : Type} [Scalar α]

/-- SI seconds in a mean solar day of Mars. -/
def secondsPerSol : α := 88775.244147

def daysPerSol : α := 1.0274912517

def secondsPerMillisol : α := secondsPerSol / 1000.0

/-- Mean sols from one northern vernal equinox to the next. -/
def solsPerTropicalMir : α := 668.5907

def epochTimestamp : α :=
  let date := epoch.date
  let days := Julian.dayNumber date.year date.month date.day - Julian.unixEpochDay
  Scalar.ofInt days * Julian.secondsPerDay + epoch.secondsOfDay

namespace Instant

def origin : Instant α := ⟨0.0⟩

def ofTimestamp (timestamp : α) : Instant α :=
  ⟨(timestamp - epochTimestamp) / secondsPerSol⟩

def timestamp (instant : Instant α) : α :=
  epochTimestamp + instant.sols * secondsPerSol

def ofMoment (moment : Moment) : Instant α :=
  ofTimestamp moment.timestamp

def toMoment (instant : Instant α) : Except Error Moment :=
  Moment.ofTimestamp instant.timestamp

def ofUtcJulian (date : α) : Instant α :=
  ofTimestamp (Julian.toTimestamp date)

def toJulian (instant : Instant α) (scale : Scale) : α :=
  let date := Julian.ofTimestamp instant.timestamp
  match scale with
  | .utc => date
  | .tai => Scale.taiOfUtc date
  | .tt => Scale.ttOfUtc date

def toJulianDate (instant : Instant α) (scale : Scale) : JulianDate scale α :=
  JulianDate.convert scale (⟨Julian.ofTimestamp instant.timestamp⟩ : JulianDate .utc α)

def vernalEquinox (mir : Int) : Instant α :=
  ofUtcJulian (686.971032958 * Scalar.ofInt mir + 2308806.29606)

/-- The sols read in a zone: rounded to a millionth of a sol, then shifted. -/
def zoneSols (instant : Instant α) (zone : Zone) : α :=
  Scalar.round (instant.sols * 1e6) / 1e6 + zone.offsetSols

def wholeSol (instant : Instant α) (zone : Zone) : Int :=
  Scalar.toWord (Scalar.floor (instant.zoneSols zone))

/-- The time of the whole sol in thousandths, cut off after three more places. -/
def millisols (instant : Instant α) (zone : Zone) : α :=
  let sols := instant.zoneSols zone
  Scalar.floor ((sols - Scalar.floor sols) * 1e6) / 1e3

def dateOn (instant : Instant α) (zone : Zone) (found : SolDate) : Date α :=
  ⟨found.mir, found.month, found.sol, instant.millisols zone, zone⟩

def toDate (instant : Instant α) (zone : Zone) : Date α :=
  instant.dateOn zone (SolDate.ofCount (instant.wholeSol zone))

end Instant

namespace Date

def toInstant (date : Date α) : Instant α :=
  ⟨Scalar.ofInt (Mir.start date.mir) + Scalar.ofInt (date.solOfMir - 1 : Nat)
    + date.millisols / 1000.0 - date.zone.offsetSols⟩

def first : Date α := Instant.origin.toDate Zone.mtc

def ofTimestamp (timestamp : α) (zone : Zone) : Date α :=
  (Instant.ofTimestamp timestamp).toDate zone

def timestamp (date : Date α) : α :=
  date.toInstant.timestamp

def inZone (date : Date α) (zone : Zone) : Date α :=
  date.toInstant.toDate zone

end Date

end MarsCalendar.Mars
