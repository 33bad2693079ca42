set_option autoImplicit false

/-! The names of the months and of the sols of the week. -/

namespace MarsCalendar.Mars

/-- A month is named after a constellation, with its abbreviation, the meaning of the
name, and the right ascension of its centre as hours and minutes. -/
structure MonthName where
  abbreviation : String
  name : String
  meaning : String
  rightAscension : String
  deriving DecidableEq, Repr

def monthNames : List MonthName :=
  [⟨"Phe", "Phoenix", "Phoenix", "00 55.91"⟩,
   ⟨"Cet", "Cetus", "Whale", "01 40.10"⟩,
   ⟨"Dor", "Dorado", "Dolphinfish", "05 14.51"⟩,
   ⟨"Lep", "Lepus", "Hare", "05 33.95"⟩,
   ⟨"Col", "Columba", "Dove", "05 51.76"⟩,
   ⟨"Mon", "Monoceros", "Unicorn", "07 03.63"⟩,
   ⟨"Vol", "Volans", "Flying Fish", "07 47.73"⟩,
   ⟨"Lyn", "Lynx", "Lynx", "07 59.53"⟩,
   ⟨"Cam", "Camelopardalis", "Giraffe", "08 51.37"⟩,
   ⟨"Cha", "Chamaeleon", "Chameleon", "10 41.53"⟩,
   ⟨"Hya", "Hydra", "Sea Serpent", "11 36.73"⟩,
   ⟨"Crv", "Corvus", "Raven", "12 26.52"⟩,
   ⟨"Cen", "Centaurus", "Centaur", "13 04.27"⟩,
   ⟨"Dra", "Draco", "Dragon", "15 08.64"⟩,
   ⟨"Lup", "Lupus", "Wolf", "15 13.21"⟩,
   ⟨"Aps", "Apus", "Bird of Paradise", "16 08.65"⟩,
   ⟨"Pav", "Pavo", "Peacock", "19 36.71"⟩,
   ⟨"Aql", "Aquila", "Eagle", "19 40.02"⟩,
   ⟨"Vul", "Vulpecula", "Fox", "20 13.88"⟩,
   ⟨"Cyg", "Cygnus", "Swan", "20 35.28"⟩,
   ⟨"Del", "Delphinus", "Dolphin", "20 41.61"⟩,
   ⟨"Gru", "Grus", "Crane", "22 27.39"⟩,
   ⟨"Peg", "Pegasus", "Pegasus", "22 41.84"⟩,
   ⟨"Tuc", "Tucana", "Toucan", "23 46.64"⟩]

def solNames : List String :=
  ["Lunasol", "Earthsol", "Venusol", "Mercurisol", "Jupitersol", "Saturnsol", "Sunsol"]

def entry? {α : Type} (entries : List α) : Nat → Option α
  | 0 => none
  | place + 1 => entries[place]?

def monthName? (month : Nat) : Option MonthName :=
  entry? monthNames month

def solName? (sol : Nat) : Option String :=
  entry? solNames sol

end MarsCalendar.Mars
