import SchedulingService.Jwks.Newest

/-!
# One call of `loadPublicKey`

A call with everything the endpoint may answer it, from the missing URL to a
document of any keys, and what it leaves in `keyMap` and `primaryPem`.

Main results:

* `call_loaded`, `call_failed` — the two ends of a call;
* `keys_exec` — while no document brings keys, the installed ones stay;
* `loadsCleanly_iff` — for which documents a good key is enough for a call to
  succeed.
-/

namespace SchedulingService.Jwks

open Js

/-- What becomes of the request of a call. -/
inductive Answer
  /-- The fetch throws, or is aborted. -/
  | error
  /-- `response.ok` is false. -/
  | refused
  /-- The body is no JSON. -/
  | unreadable
  | json (document : Value)

def Answer.events (ℓ : LoadId) : Answer → List Event
  | .error => [.fetchError ℓ]
  | .refused => [.respond ℓ false]
  | .unreadable => [.respond ℓ true, .body ℓ none]
  | .json document => [.respond ℓ true, .body ℓ (some document)]

/-- The keys that an answer brings. -/
def Answer.keys (E : Env) : Answer → Option KeyMap
  | .json document => loadKeys E document
  | _ => none

/-- `loadPublicKey`, up to where it resolves or rejects. -/
def Sys.call (E : Env) (s : Sys) (origin : Origin) (answer : Answer) : Option Sys :=
  match E.jwksUri with
  | some _ => (machine E).exec (s.loadPublicKey E origin) (answer.events s.nextLoad)
  | none => some (s.loadPublicKey E origin)

/-- Load `ℓ` resolved, or rejected. -/
def Sys.Settled (s : Sys) (ℓ : LoadId) (ok : Bool) : Prop :=
  ∃ origin, s.loads ℓ = some ⟨origin, .settled ok⟩

section Call

variable {E : Env} {s s' : Sys} {origin : Origin} {answer : Answer}

/-- Whatever happens, and to which loads: as long as no document brings keys, the
installed keys are those of before. -/
theorem keys_exec {es : List Event} (hexec : (machine E).exec s es = some s')
    (hes : ∀ ℓ document, .body ℓ (some document) ∈ es → loadKeys E document = none) :
    s'.keyMap = s.keyMap ∧ s'.primaryPem = s.primaryPem := by
  induction es generalizing s with
  | nil =>
    obtain rfl := Option.some.inj hexec
    exact ⟨rfl, rfl⟩
  | cons e es ih =>
    obtain ⟨s₁, hstep, hrest⟩ := Option.bind_eq_some_iff.mp hexec
    have hrest := ih hrest fun ℓ document h => hes ℓ document (List.mem_cons_of_mem _ h)
    rcases keys_step (step_spec hstep) with ⟨ℓ, document, keys, rfl, hkeys, -⟩ |
      ⟨-, -, hmap, hprimary⟩
    · rw [hes ℓ document List.mem_cons_self] at hkeys
      cases hkeys
    · exact ⟨hrest.1.trans hmap, hrest.2.trans hprimary⟩

theorem step_respond {ℓ : LoadId} {ok : Bool} (h : s.loads ℓ = some ⟨origin, .fetching⟩) :
    (machine E).step s (.respond ℓ ok) =
      some (s.setLoad ℓ origin (if ok then .reading else .settled false)) := by
  simp only [machine, step, h]

/-- A body that brings no keys. -/
theorem step_body_none {ℓ : LoadId} {document : Option Value}
    (h : s.loads ℓ = some ⟨origin, .reading⟩) (hkeys : document.bind (loadKeys E) = none) :
    (machine E).step s (.body ℓ document) = some (s.setLoad ℓ origin (.settled false)) := by
  simp only [machine, step, h, hkeys]

theorem loads_setLoad (s : Sys) (ℓ : LoadId) (origin : Origin) (stage : Stage) :
    (s.setLoad ℓ origin stage).loads ℓ = some ⟨origin, stage⟩ :=
  Function.update_self ..

theorem loads_loadPublicKey (E : Env) (s : Sys) (origin : Origin) :
    (s.loadPublicKey E origin).loads s.nextLoad = some ⟨origin, E.firstStage⟩ := by
  rw [loadPublicKey_eq]
  exact Function.update_self ..

theorem loads_fetching {uri : String} (huri : E.jwksUri = some uri) :
    (s.loadPublicKey E origin).loads s.nextLoad = some ⟨origin, .fetching⟩ := by
  rw [loads_loadPublicKey, Env.firstStage, huri]
  rfl

/-- A call that has only begun installs nothing. -/
theorem keys_loadPublicKey (E : Env) (s : Sys) (origin : Origin) :
    (s.loadPublicKey E origin).keyMap = s.keyMap ∧
      (s.loadPublicKey E origin).primaryPem = s.primaryPem := by
  rw [loadPublicKey_eq]
  exact ⟨rfl, rfl⟩

variable (s origin) in
/-- A call whose answer brings keys resolves, and they are installed. -/
theorem call_loaded {uri : String} (huri : E.jwksUri = some uri) {keys : KeyMap}
    (hkeys : answer.keys E = some keys) :
    ∃ s', s.call E origin answer = some s' ∧ s'.Settled s.nextLoad true ∧
      s'.keyMap = keys ∧ s'.primaryPem = keys.first := by
  cases answer with
  | json document =>
    have hread := loads_setLoad (s.loadPublicKey E origin) s.nextLoad origin .reading
    have hbody : (some document).bind (loadKeys E) = some keys := hkeys
    rw [Sys.call, huri]
    dsimp only [Answer.events]
    rw [Machine.exec_cons (step_respond (loads_fetching huri))]
    simp only [Machine.exec, machine, step, if_true, hread, hbody, Option.bind_some]
    exact ⟨_, rfl, ⟨origin, loads_setLoad ..⟩, rfl, rfl⟩
  | _ => cases hkeys

variable (s origin) in
/-- A call without an URL, or whose answer brings no keys, rejects, and nothing is
installed. -/
theorem call_failed (h : E.jwksUri = none ∨ answer.keys E = none) :
    ∃ s', s.call E origin answer = some s' ∧ s'.Settled s.nextLoad false ∧
      s'.keyMap = s.keyMap ∧ s'.primaryPem = s.primaryPem := by
  rw [Sys.call]
  cases huri : E.jwksUri with
  | none =>
    have hstart : (s.loadPublicKey E origin).loads s.nextLoad = some ⟨origin, .settled false⟩ := by
      rw [loads_loadPublicKey, Env.firstStage, huri]
      rfl
    exact ⟨_, rfl, ⟨origin, hstart⟩, keys_loadPublicKey E s origin⟩
  | some uri =>
    have hstart : (s.loadPublicKey E origin).loads s.nextLoad = some ⟨origin, .fetching⟩ :=
      loads_fetching huri
    have hkeys : answer.keys E = none := h.resolve_left (by rw [huri]; simp)
    -- which events lead to the rejection depends on the answer
    have hrejects : ∃ s', (machine E).exec (s.loadPublicKey E origin)
        (answer.events s.nextLoad) = some s' ∧ s'.Settled s.nextLoad false := by
      let reading := (s.loadPublicKey E origin).setLoad s.nextLoad origin .reading
      have hread : reading.loads s.nextLoad = some ⟨origin, .reading⟩ := loads_setLoad ..
      cases answer with
      | error =>
        refine ⟨_, ?_, origin, loads_setLoad (s.loadPublicKey E origin) ..⟩
        simp only [Answer.events, Machine.exec, machine, step, hstart]
        rfl
      | refused =>
        refine ⟨_, Machine.exec_cons (step_respond hstart) [], origin, loads_setLoad ..⟩
      | unreadable =>
        exact ⟨_, (Machine.exec_cons (step_respond hstart) _).trans
          (Machine.exec_cons (step_body_none hread rfl) []), origin, loads_setLoad reading ..⟩
      | json document =>
        have hbody : (some document).bind (loadKeys E) = none := hkeys
        exact ⟨_, (Machine.exec_cons (step_respond hstart) _).trans
          (Machine.exec_cons (step_body_none hread hbody) []), origin, loads_setLoad reading ..⟩
    obtain ⟨s', hexec, hsettled⟩ := hrejects
    refine ⟨s', hexec, hsettled, ?_⟩
    obtain ⟨hmap, hprimary⟩ := keys_loadPublicKey E s origin
    rw [← hmap, ← hprimary]
    refine keys_exec hexec fun ℓ document hmem => ?_
    cases answer with
    | json document' =>
      simp only [Answer.events, List.mem_cons, reduceCtorEq, List.not_mem_nil, or_false,
        false_or, Event.body.injEq, Option.some.injEq] at hmem
      rw [hmem.2]
      exact hkeys
    | _ => simp [Answer.events] at hmem

end Call

/-! ## Good keys -/

/-- A signing key that can be imported. -/
def Importable (E : Env) (k : Value) : Prop :=
  isSigningKey k = true ∧ (E.importKey k).isSome = true

/-- An element the loop gets past: not nullish, and if it is a signing key that
cannot be imported, one that can be warned about. -/
def Passable (E : Env) (k : Value) : Prop :=
  k.isNullish = false ∧ (isSigningKey k = true → E.importKey k = none → canWarn k = true)

/-- What a call is to do with a document of the keys `ks`. -/
structure LoadsCleanly (E : Env) (s : Sys) (origin : Origin) (document : Value)
    (ks : List Value) : Prop where
  succeeds : (∃ k ∈ ks, Importable E k) →
    ∃ s', s.call E origin (.json document) = some s' ∧ s'.Settled s.nextLoad true
  keys : ∀ s', s.call E origin (.json document) = some s' → s'.Settled s.nextLoad true →
    (∀ kid, s'.getPublicKeyPem (some kid) = lastImported E kid (ks.filter isSigningKey)) ∧
      ∃ entry ∈ s'.keyMap, s'.primaryPem = some entry.2
  atomic : ∀ answer s', s.call E origin answer = some s' → s'.Settled s.nextLoad false →
    s'.keyMap = s.keyMap ∧ s'.primaryPem = s.primaryPem

section Documents

variable {E : Env} {document : Value} {ks : List Value}

theorem ecKeys_of_keys (hks : document.get "keys" = .arr ks) :
    ecKeys document = if ks.any Value.isNullish then none else some (ks.filter isSigningKey) := by
  have hdocument : document.isNullish = false := by
    cases document with
    | undefined | null => cases hks
    | _ => rfl
  rw [ecKeys, hdocument, hks]
  rfl

/-- A document with a good key brings keys exactly if every element is passable. -/
theorem loadKeys_isSome_iff (hks : document.get "keys" = .arr ks)
    (hgood : ∃ k ∈ ks, Importable E k) :
    (loadKeys E document).isSome = true ↔ ∀ k ∈ ks, Passable E k := by
  obtain ⟨good, hmem, hsigning, himport⟩ := hgood
  have hfilter : good ∈ ks.filter isSigningKey := List.mem_filter.mpr ⟨hmem, hsigning⟩
  rw [loadKeys, ecKeys_of_keys hks]
  by_cases hnull : ks.any Value.isNullish = true
  · -- the filter throws at a null
    rw [if_pos hnull]
    obtain ⟨k, hk, hnullish⟩ := List.any_eq_true.mp hnull
    constructor
    · intro h
      cases h
    · intro h
      rw [(h k hk).1] at hnullish
      cases hnullish
  · rw [if_neg hnull]
    have hne : (ks.filter isSigningKey).isEmpty = false := by
      rw [List.isEmpty_eq_false_iff]
      exact List.ne_nil_of_mem hfilter
    have hnull' : ∀ k ∈ ks, k.isNullish = false := fun k hk =>
      Bool.eq_false_iff.mpr fun hk' => hnull (List.any_eq_true.mpr ⟨k, hk, hk'⟩)
    -- the loop sees the signing keys only
    have hpassable : (∀ k ∈ ks, Passable E k) ↔
        ∀ k ∈ ks.filter isSigningKey, E.importKey k = none → canWarn k = true := by
      constructor
      · intro h k hk
        obtain ⟨hk, hk'⟩ := List.mem_filter.mp hk
        exact (h k hk).2 hk'
      · intro h k hk
        exact ⟨hnull' k hk, fun hk' => h k (List.mem_filter.mpr ⟨hk, hk'⟩)⟩
    rw [hpassable, ← importKeys_isSome_iff (E := E) (m := [])]
    simp only [Option.bind_eq_bind, Option.bind_some, hne, Bool.false_eq_true, if_false]
    cases hmap : importKeys E [] (ks.filter isSigningKey) with
    | none => simp
    | some newMap =>
      -- the good key is in the map
      have hnewMap : newMap ≠ [] := by
        rw [ne_eq, importKeys_eq_nil_iff hmap]
        rintro ⟨-, hnone⟩
        rw [hnone good hfilter] at himport
        cases himport
      simp [hnewMap]

/-- What a document brings: under every kid its last importable key, and a first
key. -/
theorem loadKeys_spec (hks : document.get "keys" = .arr ks) {keys : KeyMap}
    (h : loadKeys E document = some keys) :
    (∀ kid, keys.get kid = lastImported E kid (ks.filter isSigningKey)) ∧
      ∃ entry ∈ keys, keys.first = some entry.2 := by
  obtain ⟨hne, eks, heks, hmap⟩ := loadKeys_eq_some h
  have hfilter : eks = ks.filter isSigningKey := by
    rw [ecKeys_of_keys hks] at heks
    split at heks
    · cases heks
    · exact (Option.some.inj heks).symm
  constructor
  · intro kid
    rw [get_importKeys hmap, hfilter]
    exact Option.or_none
  · obtain ⟨entry, rest, rfl⟩ := List.exists_cons_of_ne_nil hne
    exact ⟨entry, List.mem_cons_self, rfl⟩

theorem Sys.Settled.unique {s : Sys} {ℓ : LoadId} {ok ok' : Bool} (h : s.Settled ℓ ok)
    (h' : s.Settled ℓ ok') : ok = ok' := by
  obtain ⟨origin, h⟩ := h
  obtain ⟨origin', h'⟩ := h'
  rw [h] at h'
  injection h' with h'
  injection h' with _ hstage
  injection hstage

/-- What a call did, by how it ended. -/
theorem call_cases {s s' : Sys} {origin : Origin} {answer : Answer} {ok : Bool}
    (hcall : s.call E origin answer = some s') (hsettled : s'.Settled s.nextLoad ok) :
    (ok = true ∧ ∃ keys, answer.keys E = some keys ∧ s'.keyMap = keys ∧
      s'.primaryPem = keys.first) ∨
    (ok = false ∧ s'.keyMap = s.keyMap ∧ s'.primaryPem = s.primaryPem) := by
  by_cases h : E.jwksUri = none ∨ answer.keys E = none
  · obtain ⟨s'', hcall', hsettled', hfields⟩ := call_failed s origin h
    obtain rfl : s'' = s' := Option.some.inj (hcall'.symm.trans hcall)
    exact .inr ⟨hsettled.unique hsettled', hfields⟩
  · obtain ⟨huri, hkeys⟩ := not_or.mp h
    obtain ⟨uri, huri⟩ := Option.ne_none_iff_exists'.mp huri
    obtain ⟨keys, hkeys⟩ := Option.ne_none_iff_exists'.mp hkeys
    obtain ⟨s'', hcall', hsettled', hfields⟩ := call_loaded s origin huri hkeys
    obtain rfl : s'' = s' := Option.some.inj (hcall'.symm.trans hcall)
    exact .inl ⟨hsettled.unique hsettled', keys, hkeys, hfields⟩

end Documents

/-- **Good keys.** With a good key in the document a call succeeds exactly if the
loops get past every element; the keys it leaves, and that it leaves them alone
when it fails, do not depend on that. -/
theorem loadsCleanly_iff (E : Env) {uri : String} (huri : E.jwksUri = some uri) (s : Sys)
    (origin : Origin) {document : Value} {ks : List Value}
    (hks : document.get "keys" = .arr ks) :
    LoadsCleanly E s origin document ks ↔
      ((∃ k ∈ ks, Importable E k) → ∀ k ∈ ks, Passable E k) := by
  constructor
  · -- what succeeds has brought keys
    intro h hgood
    obtain ⟨s', hcall, hsettled⟩ := h.succeeds hgood
    rw [← loadKeys_isSome_iff hks hgood]
    rcases call_cases hcall hsettled with ⟨-, keys, hkeys, -⟩ | ⟨hfalse, -⟩
    · exact Option.isSome_of_eq_some hkeys
    · cases hfalse
  · intro h
    refine ⟨fun hgood => ?_, fun s' hcall hsettled => ?_, fun answer s' hcall hsettled => ?_⟩
    · obtain ⟨keys, hkeys⟩ :=
        Option.isSome_iff_exists.mp ((loadKeys_isSome_iff hks hgood).mpr (h hgood))
      have hanswer : (Answer.json document).keys E = some keys := hkeys
      obtain ⟨s', hcall, hsettled, -⟩ := call_loaded s origin huri hanswer
      exact ⟨s', hcall, hsettled⟩
    · rcases call_cases hcall hsettled with ⟨-, keys, hkeys, hmap, hprimary⟩ | ⟨hfalse, -⟩
      · obtain ⟨hget, hfirst⟩ := loadKeys_spec hks hkeys
        have hpem : ∀ kid, s'.getPublicKeyPem (some kid) = s'.keyMap.get kid := fun _ => rfl
        simp only [hpem, hmap, hprimary]
        exact ⟨hget, hfirst⟩
      · cases hfalse
    · rcases call_cases hcall hsettled with ⟨htrue, -⟩ | ⟨-, hfields⟩
      · cases htrue
      · exact hfields

/-- A signing key; the importer of `sampleEnv` takes it if `x` is `"x"`. -/
def sampleKey (x : String) (kid : Value) : Value :=
  .obj [("kty", .str "EC"), ("crv", .str "P-256"), ("use", .str "sig"), ("x", .str x),
    ("y", .str "y"), ("kid", kid)]

def sampleEnv : Env where
  jwksUri := some "https://auth-service/.well-known/jwks.json"
  importKey k := if eqStr (k.get "x") "x" then some "pem" else none

/-- The good key is lost behind a null; or behind a key that cannot be imported and
whose kid is an object with a `toString`. -/
theorem loadPublicKey_loses_key :
    let good := sampleKey "x" (.str "kid")
    ∀ bad ∈ [.null, sampleKey "z" (.obj [("toString", .null)])],
      Importable sampleEnv good ∧
      ¬ LoadsCleanly sampleEnv (.start 0) .reload (.obj [("keys", .arr [bad, good])])
        [bad, good] := by
  intro good bad hbad
  have hgood : Importable sampleEnv good := ⟨rfl, rfl⟩
  refine ⟨hgood, fun h => ?_⟩
  -- nothing is loaded
  have hnone : loadKeys sampleEnv (.obj [("keys", .arr [bad, good])]) = none := by
    rcases List.mem_cons.mp hbad with rfl | hbad
    · rfl
    · obtain rfl := List.mem_singleton.mp hbad
      rfl
  obtain ⟨s', hcall, hsettled⟩ := h.succeeds ⟨good, by simp, hgood⟩
  rcases call_cases hcall hsettled with ⟨-, keys, hkeys, -⟩ | ⟨hfalse, -⟩
  · rw [Answer.keys, hnone] at hkeys
    cases hkeys
  · cases hfalse

theorem loadsCleanly_sample :
    let good := sampleKey "x" (.str "kid")
    LoadsCleanly sampleEnv (.start 0) .reload (.obj [("keys", .arr [.str "key", good])])
      [.str "key", good] := by
  intro good
  refine (loadsCleanly_iff sampleEnv rfl (.start 0) .reload rfl).mpr fun _ k hk => ?_
  simp only [List.mem_cons, List.not_mem_nil, or_false] at hk
  rcases hk with rfl | rfl
  · exact ⟨rfl, fun h => nomatch h⟩
  · exact ⟨rfl, fun _ h => nomatch h⟩

end SchedulingService.Jwks
