import Colloquy.Text.Blank
import Colloquy.Text.LowerCase
import Colloquy.Tool.Backend

/-!
# The weather

A native function that makes up the weather of a city. All it says follows from one number that is
computed from the city's name, so that a city always has the same weather.
-/

namespace Colloquy.Toolbox

/-- The units of a temperature. -/
inductive Units where
  /-- Degrees Celsius. -/
  | metric
  /-- Degrees Fahrenheit. -/
  | imperial
  deriving DecidableEq, Repr

/-- The skies. -/
def skies : List String :=
  ["sunny", "partly cloudy", "overcast", "light rain", "heavy rain", "thunderstorms", "snow", "fog"]

/-- The directions that the wind comes from. -/
def winds : List String :=
  ["N", "NE", "E", "SE", "S", "SW", "W", "NW"]

/-- The number of a city: the bytes of its name in small letters as digits in base 31, modulo the
words of 32 bits. -/
def cityNumber (city : String) : UInt32 :=
  (Text.lower city).toUTF8.toList.foldl (fun n byte => n * 31 + byte.toUInt32) 0

/-- The temperature of a city. A half of a degree does not occur, for five of these degrees are nine
of those. -/
def temperature (units : Units) (number : Nat) : Int :=
  let celsius : Int := number % 40 - 5
  match units with
  | .metric => celsius
  | .imperial => (2 * (9 * celsius + 160) + 5).fdiv 10

/-- The weather of a city. -/
def report (city : String) (units : Units) : String :=
  let number := (cityNumber city).toNat
  let unit := match units with
    | .metric => "C"
    | .imperial => "F"
  toString (temperature units number) ++ unit ++ ", " ++ skies.getD (number / 7 % 8) "" ++
    ", humidity " ++ toString (30 + number % 60) ++ "%, wind " ++ toString (5 + number % 30) ++
    " km/h " ++ winds.getD (number / 3 % 8) ""

/-- The city among some parameters, which may be called a location. -/
def city? (parameters : Json.Members) : Option String := do
  let named ← (parameters.get? "city").or (parameters.get? "location")
  let city := Text.trim (← named.asText?)
  if city.isEmpty then none else some city

/-- The units among some parameters; degrees Celsius are meant where no text says otherwise. -/
def units (parameters : Json.Members) : Except ToolFault Units :=
  match (parameters.get? "units").bind Json.asText? with
  | none | some "metric" => .ok .metric
  | some "imperial" => .ok .imperial
  | some other =>
    .error (.invalidArguments ("units must be 'metric' or 'imperial', got '" ++ other ++ "'"))

/-- The weather of the city among some parameters. -/
def weather : NativeFunction where
  name := "get_weather"
  call parameters :=
    match city? parameters with
    | none => .error (.invalidArguments "city is required")
    | some city => (units parameters).map fun units => .text (report city units)

end Colloquy.Toolbox
