import SchedulingService.Js.Value

/-!
# Decoded wire messages

A handler is not given a message but the plain object the loader makes of it,
and which keys and values that object has is decided by the loader's options,
not by the interface the handler was compiled against.

A message here is the list of its fields under their names in the `.proto`,
each holding its value (an absent scalar holds its zero value, an absent
message nothing). `toObject` is the object the loader builds from it.

Main results:

* `get_toObject` — a field is found under the loader's name for it, with the
  value the loader decodes it to.
* `get_toObject_of_ne` — under any other key there is `undefined`; no error
  tells the two apart.
-/

namespace SchedulingService.Js.Protobuf

/-- The loader options that decide an object's keys and the form of its enum
values. `longs: String` and `defaults: true` are fixed: a 64-bit integer is a
string of digits, and every field of the message is a key of the object. -/
structure LoaderOptions where
  keepCase : Bool
  /-- `enums: String`; without it an enum value is its number. -/
  enumsAsString : Bool

/-- `google.protobuf.Timestamp`. -/
structure Timestamp where
  seconds : Int64
  nanos : Int32
  deriving DecidableEq

/-- The instant in milliseconds since the epoch. -/
def Timestamp.millis (t : Timestamp) : Int :=
  t.seconds.toInt * 1000 + t.nanos.toInt / 1000000

/-- A field's value, by the field's declared type. -/
inductive Field
  | string (s : String)
  | int32 (n : Int32)
  /-- Any number is a value of an open enum; `names` are the declared ones. -/
  | enum (names : List (Int32 × String)) (n : Int32)
  | timestamp (t : Option Timestamp)

abbrev Message := List (String × Field)

/-! ## Names -/

/-- `name.replace(/_([a-z])/g, …)`: an underscore and the lower-case letter
after it become that letter in upper case. -/
def camelCaseTail : List Char → List Char
  | [] => []
  | [c] => [c]
  | '_' :: c :: rest =>
    if c.isLower then c.toUpper :: camelCaseTail rest else '_' :: camelCaseTail (c :: rest)
  | c :: d :: rest => c :: camelCaseTail (d :: rest)

/-- The first character is never replaced. -/
def camelCase (name : String) : String :=
  match name.toList with
  | [] => ""
  | c :: rest => String.ofList (c :: camelCaseTail rest)

/-- The key a field of the `.proto` has in the decoded object. -/
def LoaderOptions.key (o : LoaderOptions) (name : String) : String :=
  if o.keepCase then name else camelCase name

example : camelCase "interval_seconds" = "intervalSeconds" := by decide

/-! ## Values -/

/-- A 32-bit integer is a number. -/
def int32Value (n : Int32) : Value := .num (.fin n.toInt)

/-- An enum value is the name declared for it, and its number if there is
none. -/
def LoaderOptions.enumValue (o : LoaderOptions) (names : List (Int32 × String))
    (n : Int32) : Value :=
  if o.enumsAsString then ((names.lookup n).map Value.str).getD (int32Value n)
  else int32Value n

theorem eqNum_int32Value (n k : Int32) :
    (int32Value n).eqNum (.fin k.toInt) = decide (n = k) := by
  simp [int32Value, Value.eqNum, Int32.toInt_inj]

/-- Spelled as a string, an enum value is never the number of a declared one. -/
theorem eqNum_enumValue_of_declared {o : LoaderOptions} (ho : o.enumsAsString = true)
    {names : List (Int32 × String)} {k : Int32} (hk : (names.lookup k).isSome) (n : Int32) :
    (o.enumValue names n).eqNum (.fin k.toInt) = false := by
  unfold LoaderOptions.enumValue
  rw [if_pos ho]
  cases hn : names.lookup n with
  | some name => rfl
  | none =>
    -- a number without a name is not the number of a declared value
    have hne : n ≠ k := by
      rintro rfl
      rw [hn] at hk
      exact absurd hk (by simp)
    show (int32Value n).eqNum (.fin k.toInt) = false
    rw [eqNum_int32Value]
    exact decide_eq_false hne

def LoaderOptions.value (o : LoaderOptions) : Field → Value
  | .string s => .str s
  | .int32 n => int32Value n
  | .enum names n => o.enumValue names n
  | .timestamp none => .null
  | .timestamp (some t) =>
    .obj [("seconds", .str (toString t.seconds.toInt)), ("nanos", int32Value t.nanos)]

/-! ## The decoded object -/

/-- The object a handler receives. -/
def toObject (o : LoaderOptions) (m : Message) : Value :=
  .obj (m.map fun f => (o.key f.1, o.value f.2))

/-- A key that is no field's key reads as `undefined`. -/
theorem get_toObject_of_ne (o : LoaderOptions) {m : Message} {key : String}
    (hkey : ∀ f ∈ m, o.key f.1 ≠ key) : (toObject o m).get key = .undefined := by
  have hnone : (m.map fun f => (o.key f.1, o.value f.2)).lookup key = none := by
    rw [List.lookup_eq_none_iff]
    intro p hp
    obtain ⟨f, hf, rfl⟩ := List.mem_map.mp hp
    -- `lookup` compares the key asked for with the field's
    have hne := hkey f hf
    simpa using fun h => hne h.symm
  rw [toObject, Value.get, hnone]
  rfl

/-- A field is found under its key when no earlier field has the same key. -/
theorem get_toObject (o : LoaderOptions) (before after : Message) (name : String) (f : Field)
    (hbefore : ∀ g ∈ before, o.key g.1 ≠ o.key name) :
    (toObject o (before ++ (name, f) :: after)).get (o.key name) = o.value f := by
  induction before with
  | nil => simp [toObject, Value.get]
  | cons g before ih =>
    have hne : o.key g.1 ≠ o.key name := hbefore g (by simp)
    have hrest := ih fun g' hg' => hbefore g' (List.mem_cons_of_mem _ hg')
    have hbeq : (o.key name == o.key g.1) = false := by simpa using fun h => hne h.symm
    rw [← hrest]
    simp only [toObject, Value.get, List.cons_append, List.map_cons, List.lookup_cons, hbeq]

end SchedulingService.Js.Protobuf
