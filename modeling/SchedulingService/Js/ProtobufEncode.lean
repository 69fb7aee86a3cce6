import SchedulingService.Js.Protobuf

/-!
# Encoding a message from an object

The other direction of the loader: a client call is given a plain object and
the loader's `fromObject` fills the message from it. Each field is read under
one key, the loader's name for it; what stands under any other key is ignored,
and a field whose key is missing keeps its zero value. Neither is an error.

`none` is a thrown error: nothing is put on the wire.

Main results, on reading one field of an object `d` that has no such key:

* `readString_undefined`, `readEnum_undefined`, `readTimestamp_undefined`,
  `readStringMap_undefined` — the field's zero value;
* `readStringMap_obj` — a map keeps its keys, its values become their string
  forms.
-/

namespace SchedulingService.Js.Protobuf

/-- The conversions of the language and of the loader's long integers that
`fromObject` relies on. -/
structure Conversions where
  /-- `String(n)` of a number. -/
  numberString : Number → String
  /-- `String(d)` of a date. -/
  dateString : Date → String
  /-- `Long.fromValue(v)`. -/
  long : Value → Option Int64
  /-- `v | 0`. -/
  int32 : Value → Option Int32

namespace Conversions

variable (C : Conversions)

mutual

/-- `String(v)`. -/
def string : Value → Option String
  | .undefined => some "undefined"
  | .null => some "null"
  | .bool b => some (if b then "true" else "false")
  | .num n => some (C.numberString n)
  | .str s => some s
  | .date d => some (C.dateString d)
  | .arr xs => (elementStrings xs).map fun ss => ",".intercalate ss
  -- an own `toString` of a plain object is no function: no primitive value
  | .obj props => if (props.lookup "toString").isSome then none else some "[object Object]"

/-- The elements as `join` writes them: nullish ones as nothing. -/
def elementStrings : List Value → Option (List String)
  | [] => some []
  | .undefined :: xs => (elementStrings xs).map ("" :: ·)
  | .null :: xs => (elementStrings xs).map ("" :: ·)
  | x :: xs => do
    let s ← string x
    let ss ← elementStrings xs
    some (s :: ss)

end

@[simp] theorem string_str (s : String) : C.string (.str s) = some s := by
  simp [string]

/-! ## Reading a field -/

/-- A `string` field: `if (v != null) String(v)`. -/
def readString (v : Value) : Option String :=
  if v.isNullish then some "" else C.string v

/-- `Object.keys(v)` with the values under them. -/
def ownEntries : Value → List (String × Value)
  | .obj props => props
  | .arr xs => xs.zipIdx.map fun p => (toString p.2, p.1)
  | _ => []

/-- One entry of a `map<string, string>`. -/
def readEntry (e : String × Value) : Option (String × String) :=
  (C.string e.2).map fun s => (e.1, s)

/-- A `map<string, string>` field: a falsy value is no map at all. -/
def readStringMap (v : Value) : Option (List (String × String)) :=
  if !v.truthy then some []
  else if v.typeofObject then (ownEntries v).mapM C.readEntry
  else none

/-- A `google.protobuf.Timestamp` field. -/
def readTimestamp (v : Value) : Option (Option Timestamp) :=
  if v.isNullish then some none
  else if v.typeofObject then do
    let seconds ← if (v.get "seconds").isNullish then some 0 else C.long (v.get "seconds")
    let nanos ← if (v.get "nanos").isNullish then some 0 else C.int32 (v.get "nanos")
    some (some { seconds, nanos })
  else none

@[simp] theorem readString_undefined : C.readString .undefined = some "" := rfl

@[simp] theorem readString_str (s : String) : C.readString (.str s) = some s := by
  simp [readString, Value.isNullish]

@[simp] theorem readStringMap_undefined : C.readStringMap .undefined = some [] := rfl

@[simp] theorem readTimestamp_undefined : C.readTimestamp .undefined = some none := rfl

/-- A date has no `seconds` and no `nanos`: it is read as the epoch. -/
theorem readTimestamp_date (d : Date) :
    C.readTimestamp (.date d) = some (some { seconds := 0, nanos := 0 }) := rfl

theorem readStringMap_obj (props : List (String × Value)) :
    C.readStringMap (.obj props) = props.mapM C.readEntry := rfl

/-- A map all of whose values are strings is read as it is. -/
theorem mapM_readEntry_strings (entries : List (String × String)) :
    (entries.map fun e => (e.1, Value.str e.2)).mapM C.readEntry = some entries := by
  induction entries with
  | nil => rfl
  | cons e entries ih =>
    rw [List.map_cons, List.mapM_cons, ih]
    simp [readEntry]

end Conversions

/-- The value of an enum given as a name, or as a number. -/
def readEnum (names : List (Int32 × String)) : Value → Int32
  | .str s => ((names.find? fun n => n.2 = s).map Prod.fst).getD 0
  | .num (.fin q) => Int32.ofInt (q.num.tdiv q.den)
  | _ => 0

@[simp] theorem readEnum_undefined (names : List (Int32 × String)) :
    readEnum names .undefined = 0 := rfl

end SchedulingService.Js.Protobuf
