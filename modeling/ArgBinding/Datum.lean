import ArgBinding.Enumeration
import ArgBinding.Numeral.Binary64
import ArgBinding.Text.Listed
import ArgBinding.Text.Quoted

/-! Data that stands where a declaration or the choices of a parameter are expected. A datum has
two spellings: the plain one, in which a text is itself, and the notation, in which it is quoted.
-/

namespace ArgBinding

open ArgBinding.Numeral ArgBinding.Text

/-- A type of values, as far as it says which values a parameter may take. -/
inductive Kind where
  | truth
  | integer
  | enumeration (enumeration : Enumeration)
  deriving DecidableEq, Repr

/-- A datum. -/
inductive Datum where
  | null
  | truth (value : Bool)
  | integer (value : Int)
  | real (value : Binary64)
  | text (value : String)
  | list (items : List Datum)
  | kind (kind : Kind)

/-- The spelling of a type. -/
def Kind.spelling : Kind → String
  | truth => "<class 'bool'>"
  | integer => "<class 'int'>"
  | enumeration e => "<enum " ++ quoted e.name ++ ">"

namespace Datum

mutual

/-- The notation of a datum, in which texts are quoted. -/
def spelled : Datum → String
  | null => "None"
  | truth value => if value then "True" else "False"
  | integer value => toString value
  | real value => value.toText
  | text value => quoted value
  | list items => listed (spelledItems items)
  | kind k => k.spelling

/-- The notations of the items of a list. -/
def spelledItems : List Datum → List String
  | [] => []
  | item :: rest => spelled item :: spelledItems rest

end

/-- The plain spelling of a datum, in which a text is itself. -/
def plain : Datum → String
  | text value => value
  | datum => datum.spelled

/-- The number that a datum stands for, as a multiple of the least positive floating point number.
Truth values count as zero and one.
-/
def scaledNumber? : Datum → Option Int
  | truth value => some (if value then Binary64.unitsInOne else 0)
  | integer value => some (value * Binary64.unitsInOne)
  | real (.finite negative significand exponent) =>
      let magnitude := significand * Nat.pow 2 (exponent - Binary64.minExponent).toNat
      some (if negative then -magnitude else magnitude)
  | _ => none

mutual

/-- Whether two data are the same. Numbers are compared as numbers, lists by items, and what is no
number is the same as itself.
-/
def same : Datum → Datum → Bool
  | null, other =>
      match other with
      | null => true
      | _ => false
  | truth value, other => other.scaledNumber? == (truth value).scaledNumber?
  | integer value, other => other.scaledNumber? == (integer value).scaledNumber?
  | real (.infinite negative), other =>
      match other with
      | real (.infinite other) => negative == other
      | _ => false
  | real .nan, other =>
      match other with
      | real .nan => true
      | _ => false
  | real (.finite negative significand exponent), other =>
      other.scaledNumber? == (real (.finite negative significand exponent)).scaledNumber?
  | text value, other =>
      match other with
      | text other => value == other
      | _ => false
  | list items, other =>
      match other with
      | list others => sameItems items others
      | _ => false
  | kind k, other =>
      match other with
      | kind other => k == other
      | _ => false

/-- Whether two lists have the same items in the same order. -/
def sameItems : List Datum → List Datum → Bool
  | [], [] => true
  | item :: items, other :: others => same item other && sameItems items others
  | _, _ => false

end

/-- Data that are the same have the same hash: numbers are hashed by their value, texts and
types by their spelling, and lists by their length.
-/
instance : Hashable Datum where
  hash
    | text value => hash value
    | list items => hash items.length
    | kind k => hash k.spelling
    | datum => hash datum.scaledNumber?

/-- Lists with the same items have the same length; induction on the items. -/
theorem length_of_sameItems {items others : List Datum} (h : sameItems items others = true)
    : items.length = others.length := by
  induction items generalizing others with
  | nil => cases others <;> simp_all [sameItems]
  | cons item items ih =>
      cases others with
      | nil => simp [sameItems] at h
      | cons other others =>
          simp only [sameItems, Bool.and_eq_true] at h
          simp [ih h.2]

/-- A datum with a number is hashed by it; witness: the case of the datum. -/
theorem hash_of_scaledNumber? {datum : Datum} {number : Int}
    (h : datum.scaledNumber? = some number)
    : hash datum = hash (some number) := by
  cases datum with
  | text value => cases h
  | list items => cases h
  | kind k => cases h
  | null => cases h
  | truth value => exact congrArg hash h
  | integer value => exact congrArg hash h
  | real value => exact congrArg hash h

/-- Data that are the same have the same hash; witness: the case of the first. -/
theorem hash_of_same {datum other : Datum} (h : same datum other = true)
    : hash datum = hash other := by
  cases datum with
  | null => cases other <;> simp_all [same]
  | truth value =>
      simp only [same, beq_iff_eq] at h
      rw [hash_of_scaledNumber? h]
      exact hash_of_scaledNumber? rfl
  | integer value =>
      simp only [same, beq_iff_eq] at h
      rw [hash_of_scaledNumber? h]
      exact hash_of_scaledNumber? rfl
  | real value =>
      cases value with
      | nan =>
          cases other with
          | real other => cases other <;> simp_all [same]
          | _ => simp [same] at h
      | infinite negative =>
          cases other with
          | real other => cases other <;> simp_all [same]
          | _ => simp [same] at h
      | finite negative significand exponent =>
          simp only [same, beq_iff_eq] at h
          rw [hash_of_scaledNumber? h]
          exact hash_of_scaledNumber? rfl
  | text value =>
      cases other <;> simp_all [same]
  | list items =>
      cases other with
      | list others =>
          simp only [same] at h
          show hash items.length = hash others.length
          rw [length_of_sameItems h]
      | _ => simp [same] at h
  | kind k =>
      cases other <;> simp_all [same]

/-- The name of the type of a datum. -/
def typeName : Datum → String
  | null => "NoneType"
  | truth _ => "bool"
  | integer _ => "int"
  | real _ => "float"
  | text _ => "str"
  | list _ => "list"
  | kind _ => "type"

end Datum

end ArgBinding
