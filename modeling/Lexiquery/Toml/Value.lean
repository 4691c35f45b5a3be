import Lexiquery.Decimal.Shortest
import Lexiquery.Text.Quoted

/-! Values of a TOML document. -/

namespace Lexiquery.Toml

/-- A floating point number. A finite one keeps its sign apart, so that zero may be negative. -/
inductive Real
  | finite (negative : Bool) (magnitude : Rat)
  | infinite (negative : Bool)
  | nan
  deriving DecidableEq

inductive Value
  | string (value : String)
  | integer (value : Int64)
  | real (value : Real)
  | boolean (value : Bool)
  | dateTime
  | array (items : List Value)
  | table (entries : List (String × Value))

def Real.format : Decimal.Format where
  leastPoint := -400
  greatestPoint := 400
  exponentText _ := ""
  pointBeforeExponent := false

def Real.signText (negative : Bool) : String := if negative then "-" else ""

def Real.text : Real → String
  | finite negative q =>
    signText negative ++ (if q = 0 then "0.0" else (Decimal.shortest .up (.round q)).text format)
  | infinite negative => signText negative ++ "inf"
  | nan => "NaN"

def Value.boolText (b : Bool) : String := if b then "true" else "false"

/-- What a value is, for a message that something else was expected; a code span stands between
grave accents. -/
def Value.describe : Value → String
  | string s => s!"string {Quoted.text s}"
  | integer n => s!"integer \x60{n}\x60"
  | real x => s!"floating point \x60{x.text}\x60"
  | boolean b => s!"boolean \x60{boolText b}\x60"
  | dateTime | table _ => "map"
  | array _ => "sequence"

end Lexiquery.Toml
