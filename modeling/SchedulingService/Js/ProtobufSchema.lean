import SchedulingService.Js.ProtobufEncode

/-!
# Encoding by a schema

A message type as the list of its fields, in the order of the `.proto`, and what the
loader's `fromObject` puts on the wire of an object for it.

Main results:

* `fromObject_eq_iff` — two objects make the same message exactly when every field
  reads the same of them, under the loader's name for it;
* `fromObject_eq_iff_found` — and where both lack most keys, when the others do.
-/

namespace SchedulingService.Js.Protobuf

inductive FieldType
  | string
  | bool
  | int32
  | enum (names : List (Int32 × String))
  | timestamp
  deriving DecidableEq

/-- A field's value on the wire. -/
inductive Wire
  | string (s : String)
  | bool (b : Bool)
  | int32 (n : Int32)
  | enum (n : Int32)
  | timestamp (t : Option Timestamp)
  deriving DecidableEq

abbrev Schema := List (String × FieldType)

section Encoding

variable (C : Conversions)

/-- `v | 0`, if there is a value. -/
def Conversions.readInt32 (v : Value) : Option Int32 :=
  if v.isNullish then some 0 else C.int32 v

/-- What a field makes of the value under its key; `none` where that throws. -/
def FieldType.read (v : Value) : FieldType → Option Wire
  | string => (C.readString v).map .string
  -- `Boolean(v)`, and false where it is missing
  | bool => some (.bool v.truthy)
  | int32 => (C.readInt32 v).map .int32
  | enum names => some (.enum (readEnum names v))
  | timestamp => (C.readTimestamp v).map .timestamp

/-- The message encoded for the object `d`. -/
def fromObject (o : LoaderOptions) (schema : Schema) (d : Value) : Option (List Wire) :=
  schema.mapM fun field => field.2.read C (d.get (o.key field.1))

variable {C} {o : LoaderOptions} {schema : Schema} {d d' : Value}

theorem fromObject_cons (field : String × FieldType) :
    fromObject C o (field :: schema) d =
      (field.2.read C (d.get (o.key field.1))).bind fun w =>
        (fromObject C o schema d).map (w :: ·) := by
  unfold fromObject
  rw [List.mapM_cons]
  cases field.2.read C (d.get (o.key field.1)) with
  | none => rfl
  | some w =>
    cases List.mapM (fun field => field.2.read C (d.get (o.key field.1))) schema <;> rfl

/-- Every field that is read is put on the wire. -/
theorem exists_fromObject
    (h : ∀ field ∈ schema, (field.2.read C (d.get (o.key field.1))).isSome = true) :
    ∃ m, fromObject C o schema d = some m := by
  induction schema with
  | nil => exact ⟨[], rfl⟩
  | cons field schema ih =>
    obtain ⟨w, hw⟩ := Option.isSome_iff_exists.mp (h field List.mem_cons_self)
    obtain ⟨m, hm⟩ := ih fun f hf => h f (List.mem_cons_of_mem _ hf)
    exact ⟨w :: m, by rw [fromObject_cons, hw, hm]; rfl⟩

/-- **Alike on the wire.** Two objects that can be encoded make the same message exactly
if each field reads the same of both. -/
theorem fromObject_eq_iff
    (h : ∀ field ∈ schema, (field.2.read C (d.get (o.key field.1))).isSome = true)
    (h' : ∀ field ∈ schema, (field.2.read C (d'.get (o.key field.1))).isSome = true) :
    fromObject C o schema d = fromObject C o schema d' ↔
      ∀ field ∈ schema, field.2.read C (d.get (o.key field.1)) =
        field.2.read C (d'.get (o.key field.1)) := by
  induction schema with
  | nil => exact iff_of_true rfl fun _ hf => by cases hf
  | cons field schema ih =>
    have hrest := ih (fun f hf => h f (List.mem_cons_of_mem _ hf))
      fun f hf => h' f (List.mem_cons_of_mem _ hf)
    obtain ⟨w, hw⟩ := Option.isSome_iff_exists.mp (h field List.mem_cons_self)
    obtain ⟨w', hw'⟩ := Option.isSome_iff_exists.mp (h' field List.mem_cons_self)
    obtain ⟨m, hm⟩ := exists_fromObject fun f hf => h f (List.mem_cons_of_mem _ hf)
    obtain ⟨m', hm'⟩ := exists_fromObject fun f hf => h' f (List.mem_cons_of_mem _ hf)
    rw [List.forall_mem_cons, ← hrest, fromObject_cons, fromObject_cons, hw, hw', hm, hm']
    simp

/-- A field of which nothing is read has its zero value. -/
theorem isSome_read_undefined (C : Conversions) (type : FieldType) :
    (type.read C .undefined).isSome = true := by
  cases type <;> rfl

/-- Of `d` the encoder finds no field but those of `found`. -/
def FindsOnly (o : LoaderOptions) (schema found : Schema) (d : Value) : Prop :=
  ∀ field ∈ schema, field ∈ found ∨ d.get (o.key field.1) = .undefined

/-- What is read of the fields of `found`. -/
def readFound (C : Conversions) (o : LoaderOptions) (found : Schema) (d : Value) :
    List (Option Wire) :=
  found.map fun field => field.2.read C (d.get (o.key field.1))

/-- Then no others count. -/
theorem fromObject_eq_iff_found {found : Schema} {values values' : List Wire}
    (hfound : found ⊆ schema) (hd : FindsOnly o schema found d)
    (hd' : FindsOnly o schema found d') (h : readFound C o found d = values.map some)
    (h' : readFound C o found d' = values'.map some) :
    fromObject C o schema d = fromObject C o schema d' ↔ values = values' := by
  have hread : ∀ {x : Value} {ws : List Wire}, FindsOnly o schema found x →
      readFound C o found x = ws.map some →
        ∀ field ∈ schema, (field.2.read C (x.get (o.key field.1))).isSome = true := by
    intro x ws hx hws field hfield
    rcases hx field hfield with hmem | hmissing
    · have hvalue : field.2.read C (x.get (o.key field.1)) ∈ ws.map some := by
        rw [← hws]
        exact List.mem_map.mpr ⟨field, hmem, rfl⟩
      obtain ⟨w, -, hw⟩ := List.mem_map.mp hvalue
      rw [← hw]
      rfl
    · rw [hmissing]
      exact isSome_read_undefined C field.2
  have hvalues : values = values' ↔ readFound C o found d = readFound C o found d' := by
    rw [h, h', List.map_inj_right fun _ _ heq => Option.some.inj heq]
  rw [fromObject_eq_iff (hread hd h) (hread hd' h'), hvalues, readFound, readFound,
    List.map_inj_left]
  constructor
  · intro hall field hfield
    exact hall field (hfound hfield)
  · intro hall field hfield
    rcases hd field hfield with hmem | hmissing
    · exact hall field hmem
    · rcases hd' field hfield with hmem | hmissing'
      · exact hall field hmem
      · rw [hmissing, hmissing']

end Encoding

end SchedulingService.Js.Protobuf
