import SchedulingService.Js.Value

/-!
# From a JWKS document to a key map

The part of `loadPublicKey` behind its awaits: which keys of a document are
taken, and the `Map` they are stored in. The document is what the endpoint
answered and may be any JSON value.

Main result: `loadKeys_sound` — a stored key was imported from a signing key of
the document, under that key's own kid.
-/

namespace SchedulingService.Jwks

open Js

/-- A public key as text. -/
abbrev Pem := String

/-- What the service asks of its configuration and of `node:crypto`. -/
structure Env where
  /-- `JWT_JWKS_URL`; `getOrThrow` throws without it. -/
  jwksUri : Option String
  /-- `createPublicKey` and the export of its key; `none` where one throws. -/
  importKey : Value → Option Pem

/-! ## The map -/

/-- `Map<string, string>`, oldest entry first. The kids come from the document
and are what it has. -/
abbrev KeyMap := List (Value × Pem)

/-- The keys of a `Map` are the same. An object is the same only as itself, and
the entries of a document are different objects. -/
def sameKey : Value → Value → Bool
  | .str a, .str b => a = b
  | .num a, .num b => a = b
  | .bool a, .bool b => a = b
  | _, _ => false

namespace KeyMap

/-- `map.set(kid, pem)`: an entry that is there keeps its place. -/
def set : KeyMap → Value → Pem → KeyMap
  | [], kid, pem => [(kid, pem)]
  | (k, p) :: rest, kid, pem =>
    if sameKey k kid then (k, pem) :: rest else (k, p) :: set rest kid pem

/-- `map.get(kid)`. -/
def get (m : KeyMap) (kid : String) : Option Pem :=
  (m.find? fun entry => sameKey entry.1 (.str kid)).map Prod.snd

/-- `map.values().next().value ?? null`. -/
def first (m : KeyMap) : Option Pem := m.head?.map Prod.snd

theorem mem_set {m : KeyMap} {kid : Value} {pem : Pem} {entry : Value × Pem}
    (h : entry ∈ m.set kid pem) :
    entry ∈ m ∨ entry.2 = pem ∧ (entry.1 = kid ∨ sameKey entry.1 kid = true) := by
  induction m with
  | nil =>
    obtain rfl := List.mem_singleton.mp h
    exact .inr ⟨rfl, .inl rfl⟩
  | cons head rest ih =>
    rw [set] at h
    split at h
    · rename_i hsame
      rcases List.mem_cons.mp h with rfl | hrest
      · exact .inr ⟨rfl, .inr hsame⟩
      · exact .inl (List.mem_cons_of_mem _ hrest)
    · rcases List.mem_cons.mp h with rfl | hrest
      · exact .inl List.mem_cons_self
      · exact (ih hrest).imp (List.mem_cons_of_mem _) id

theorem eq_of_sameKey {a b : Value} (h : sameKey a b = true) : a = b := by
  cases a <;> cases b <;> first | cases h | exact congrArg _ (of_decide_eq_true h)

/-- Only the entry under the kid that is set changes. -/
theorem get_set (m : KeyMap) (k : Value) (pem : Pem) (kid : String) :
    (m.set k pem).get kid = if sameKey k (.str kid) then some pem else m.get kid := by
  induction m with
  | nil =>
    rw [set, get, List.find?_cons]
    cases sameKey k (.str kid) <;> rfl
  | cons head rest ih =>
    obtain ⟨k', p⟩ := head
    rw [set]
    split
    · rename_i hsame
      obtain rfl := eq_of_sameKey hsame
      rw [get, get, List.find?_cons, List.find?_cons]
      cases sameKey k' (.str kid) <;> rfl
    · rename_i hother
      have hcons : ∀ m : KeyMap, get ((k', p) :: m) kid =
          if sameKey k' (.str kid) then some p else m.get kid := fun m => by
        rw [get, List.find?_cons]
        cases sameKey k' (.str kid) <;> rfl
      rw [hcons, hcons, ih]
      -- both conditions together would make the two kids the same
      by_cases hfound : sameKey k' (.str kid) = true
      · have hnot : ¬ sameKey k (.str kid) = true := by
          intro hset
          rw [eq_of_sameKey hset] at hother
          exact hother hfound
        rw [if_pos hfound, if_neg hnot, if_pos hfound]
      · rw [if_neg hfound, if_neg hfound]

/-- A key that is found is that of an entry under the kid. -/
theorem mem_of_get {m : KeyMap} {kid : String} {pem : Pem} (h : m.get kid = some pem) :
    (.str kid, pem) ∈ m := by
  obtain ⟨⟨k, p⟩, hfind, rfl⟩ := Option.map_eq_some_iff.mp h
  have hmem := List.mem_of_find?_eq_some hfind
  have hsame : sameKey k (.str kid) = true :=
    List.find?_some (p := fun entry : Value × Pem => sameKey entry.1 (.str kid)) hfind
  cases k with
  | str s =>
    obtain rfl : s = kid := of_decide_eq_true hsame
    exact hmem
  | _ => cases hsame

end KeyMap

/-! ## The document -/

/-- `v === s` for a string `s`. -/
def eqStr : Value → String → Bool
  | .str t, s => t = s
  | _, _ => false

/-- The filter on the keys of a document. -/
def isSigningKey (k : Value) : Bool :=
  eqStr (k.get "kty") "EC" && eqStr (k.get "crv") "P-256" &&
    (eqStr (k.get "use") "sig" || eqStr (k.get "alg") "ES256") &&
    (k.get "x").truthy && (k.get "y").truthy

/-- `(document.keys ?? []).filter(…)`; `none` where it throws a TypeError. -/
def ecKeys (document : Value) : Option (List Value) :=
  if document.isNullish then none
  else match (document.get "keys").orElse (.arr []) with
    | .arr keys => if keys.any Value.isNullish then none else some (keys.filter isSigningKey)
    -- nothing else has a `filter`
    | _ => none

/-- `ecKey.kid ?? 'default'`. -/
def kidOf (ecKey : Value) : Value := (ecKey.get "kid").orElse (.str "default")

mutual

/-- A template literal can write the value: no object in it has a `toString` of its
own, which in a JSON value is no function. -/
def hasText : Value → Bool
  | .obj props => (props.lookup "toString").isNone
  | .arr xs => allHaveText xs
  | _ => true

def allHaveText : List Value → Bool
  | [] => true
  | x :: xs => hasText x && allHaveText xs

end

/-- The warning about a key that is skipped, which writes `ecKey.kid ?? 'none'`. -/
def canWarn (ecKey : Value) : Bool := hasText ((ecKey.get "kid").orElse (.str "none"))

/-- The loop over the keys; one that cannot be imported is skipped. `none` where
the warning about it throws a TypeError. -/
def importKeys (E : Env) (m : KeyMap) : List Value → Option KeyMap
  | [] => some m
  | ecKey :: rest =>
    match E.importKey ecKey with
    | some pem => importKeys E (m.set (kidOf ecKey) pem) rest
    | none => if canWarn ecKey then importKeys E m rest else none

/-- What `loadPublicKey` makes of a document; `none` where it throws. -/
def loadKeys (E : Env) (document : Value) : Option KeyMap := do
  let keys ← ecKeys document
  if keys.isEmpty then none
  let newMap ← importKeys E [] keys
  if newMap.isEmpty then none
  some newMap

variable {E : Env}

theorem loadKeys_eq_some {document : Value} {keys : KeyMap}
    (h : loadKeys E document = some keys) :
    keys ≠ [] ∧ ∃ ks, ecKeys document = some ks ∧ importKeys E [] ks = some keys := by
  simp only [loadKeys, Option.bind_eq_bind, Option.bind_eq_some_iff] at h
  obtain ⟨ks, hks, h⟩ := h
  split at h
  · cases h
  · obtain ⟨newMap, hmap, h⟩ := Option.bind_eq_some_iff.mp h
    split at h
    · cases h
    · rename_i hnonempty
      obtain rfl := Option.some.inj h
      exact ⟨by simpa [List.isEmpty_iff] using hnonempty, ks, hks, hmap⟩

theorem importKeys_of_some {m : KeyMap} {k : Value} {ks : List Value} {pem : Pem}
    (h : E.importKey k = some pem) :
    importKeys E m (k :: ks) = importKeys E (m.set (kidOf k) pem) ks := by
  rw [importKeys, h]

theorem importKeys_of_none {m : KeyMap} {k : Value} {ks : List Value}
    (h : E.importKey k = none) :
    importKeys E m (k :: ks) = if canWarn k then importKeys E m ks else none := by
  rw [importKeys, h]

/-- The key of the document that is to be found under `kid`: the last one that can
be imported among the signing keys with this kid. -/
def lastImported (E : Env) (kid : String) (ks : List Value) : Option Pem :=
  ks.reverse.findSome? fun k => if sameKey (kidOf k) (.str kid) then E.importKey k else none

theorem lastImported_cons (kid : String) (k : Value) (ks : List Value) :
    lastImported E kid (k :: ks) = (lastImported E kid ks).or
      (if sameKey (kidOf k) (.str kid) then E.importKey k else none) := by
  rw [lastImported, List.reverse_cons, List.findSome?_append, ← lastImported]
  congr 1
  split
  · rename_i hsame
    simp only [List.findSome?_cons, List.findSome?_nil, if_pos hsame]
    cases E.importKey k <;> rfl
  · rename_i hother
    simp only [List.findSome?_cons, List.findSome?_nil, if_neg hother]

/-- **Stored keys.** Under every kid the last importable key of the document. -/
theorem get_importKeys {m keys : KeyMap} {ks : List Value} (h : importKeys E m ks = some keys)
    (kid : String) : keys.get kid = (lastImported E kid ks).or (m.get kid) := by
  induction ks generalizing m with
  | nil =>
    obtain rfl := Option.some.inj h
    rfl
  | cons k ks ih =>
    rw [lastImported_cons]
    cases himport : E.importKey k with
    | none =>
      rw [importKeys_of_none himport] at h
      split at h
      · rw [ih h, ite_self, Option.or_none]
      · cases h
    | some pem =>
      rw [importKeys_of_some himport] at h
      rw [ih h, KeyMap.get_set, Option.or_assoc]
      congr 1
      split <;> rfl

/-- The loop stops only at the warning. -/
theorem importKeys_isSome_iff {m : KeyMap} {ks : List Value} :
    (importKeys E m ks).isSome = true ↔
      ∀ k ∈ ks, E.importKey k = none → canWarn k = true := by
  induction ks generalizing m with
  | nil => simp [importKeys]
  | cons k ks ih =>
    rw [List.forall_mem_cons]
    cases himport : E.importKey k with
    | none =>
      rw [importKeys_of_none himport]
      by_cases hwarn : canWarn k = true
      · rw [if_pos hwarn, ih]
        exact ⟨fun h => ⟨fun _ => hwarn, h⟩, fun h => h.2⟩
      · rw [if_neg hwarn]
        exact ⟨fun h => Bool.noConfusion h, fun h => absurd (h.1 rfl) hwarn⟩
    | some pem =>
      rw [importKeys_of_some himport, ih]
      exact ⟨fun h => ⟨fun hnone => (nomatch hnone), h⟩, fun h => h.2⟩

theorem KeyMap.set_ne_nil (m : KeyMap) (k : Value) (pem : Pem) : m.set k pem ≠ [] := by
  cases m with
  | nil => exact List.cons_ne_nil _ _
  | cons head rest =>
    rw [set]
    split <;> exact List.cons_ne_nil _ _

/-- The map stays empty if no key can be imported. -/
theorem importKeys_eq_nil_iff {m keys : KeyMap} {ks : List Value}
    (h : importKeys E m ks = some keys) :
    keys = [] ↔ m = [] ∧ ∀ k ∈ ks, E.importKey k = none := by
  induction ks generalizing m with
  | nil =>
    obtain rfl := Option.some.inj h
    simp
  | cons k ks ih =>
    rw [List.forall_mem_cons]
    cases himport : E.importKey k with
    | none =>
      rw [importKeys_of_none himport] at h
      split at h
      · rw [ih h]
        simp
      · cases h
    | some pem =>
      rw [importKeys_of_some himport] at h
      rw [ih h]
      simp [KeyMap.set_ne_nil]

/-- A successful load has a first key. -/
theorem first_loadKeys {document : Value} {keys : KeyMap} (h : loadKeys E document = some keys) :
    ∃ pem, keys.first = some pem := by
  obtain ⟨entry, rest, hcons⟩ := List.exists_cons_of_ne_nil (loadKeys_eq_some h).1
  exact ⟨entry.2, by rw [hcons]; rfl⟩

theorem mem_importKeys {m keys : KeyMap} {ks : List Value} {entry : Value × Pem}
    (hkeys : importKeys E m ks = some keys) (h : entry ∈ keys) :
    entry ∈ m ∨ ∃ k ∈ ks, E.importKey k = some entry.2 ∧
      (entry.1 = kidOf k ∨ sameKey entry.1 (kidOf k) = true) := by
  induction ks generalizing m with
  | nil =>
    obtain rfl := Option.some.inj hkeys
    exact .inl h
  | cons k ks ih =>
    cases himport : E.importKey k with
    | none =>
      rw [importKeys_of_none himport] at hkeys
      have hrest : importKeys E m ks = some keys := by
        split at hkeys
        · exact hkeys
        · cases hkeys
      exact (ih hrest).imp id fun ⟨k', hk', hrest⟩ => ⟨k', List.mem_cons_of_mem _ hk', hrest⟩
    | some pem =>
      rw [importKeys_of_some himport] at hkeys
      rcases ih hkeys with hset | ⟨k', hk', hrest⟩
      · -- the entry is one of before, or that of this key
        rcases KeyMap.mem_set hset with hold | ⟨rfl, hkid⟩
        · exact .inl hold
        · exact .inr ⟨k, List.mem_cons_self, himport, hkid⟩
      · exact .inr ⟨k', List.mem_cons_of_mem _ hk', hrest⟩

/-- **Stored keys.** What is stored under a kid was imported from a signing key of
the document that has this kid. -/
theorem loadKeys_sound {document : Value} {keys : KeyMap} (h : loadKeys E document = some keys)
    {kid : String} {pem : Pem} (hget : keys.get kid = some pem) :
    ∃ ks k, document.get "keys" = .arr ks ∧ k ∈ ks ∧ isSigningKey k = true ∧
      kidOf k = .str kid ∧ E.importKey k = some pem := by
  obtain ⟨-, eks, heks, hmap⟩ := loadKeys_eq_some h
  obtain hnil | ⟨k, hk, himport, hkid⟩ := mem_importKeys hmap (KeyMap.mem_of_get hget)
  · cases hnil
  have hkid' : kidOf k = .str kid := by
    rcases hkid with hsame | hsame
    · exact hsame.symm
    · cases hkidOf : kidOf k with
      | str s =>
        rw [hkidOf] at hsame
        rw [of_decide_eq_true hsame]
      | _ =>
        rw [hkidOf] at hsame
        cases hsame
  unfold ecKeys at heks
  split at heks
  · cases heks
  · split at heks
    · rename_i ks hks
      split at heks
      · cases heks
      · obtain rfl := Option.some.inj heks
        obtain ⟨hmem, hsigning⟩ := List.mem_filter.mp hk
        refine ⟨ks, k, ?_, hmem, hsigning, hkid', himport⟩
        -- a document without keys has no key
        unfold Value.orElse at hks
        split at hks
        · obtain rfl := Value.arr.inj hks
          cases hmem
        · exact hks
    · cases heks

end SchedulingService.Jwks
