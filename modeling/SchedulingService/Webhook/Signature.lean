import SchedulingService.Js.Numerals

/-!
# Webhook signatures

`WebhookHmacService`: `sign` binds a body to the second it is sent at, `verify`
takes the header of an incoming call apart, recomputes the HMAC and compares.
The HMAC itself is any function from keys and texts to 32 bytes.

Main results:

* `verify_iff` — exactly which headers are accepted;
* `verify_authentic` — what `sign` makes is accepted, and what is accepted was
  signed for that body and second;
* `verify_canonical` — which accepted headers are the one that `sign` makes.
-/

namespace SchedulingService.Webhook

open Js Lib.Numerals

/-- The output of HMAC-SHA256. -/
@[ext]
structure Digest where
  bytes : List UInt8
  length : bytes.length = 32

/-- `createHmac('sha256', secret).update(text, 'utf8').digest()`. -/
abbrev Hmac := String → String → Digest

structure WebhookHeaders where
  /-- `x-whispr-timestamp` -/
  timestamp : String
  /-- `x-whispr-signature` -/
  signature : String

def TIMESTAMP_TOLERANCE_S : Nat := 300

/-- `digest('hex')`. -/
def Digest.hex (d : Digest) : List Char := hexChars d.bytes

/-- The text under the signature; a second below `safe` is printed in full. -/
def payload (timestamp : Nat) (body : String) : String := toString timestamp ++ "." ++ body

/-- `t=<digits>,v1=<hex>`. -/
def header (digits hex : List Char) : String :=
  "t=" ++ String.ofList digits ++ ",v1=" ++ String.ofList hex

/-- `SIGNATURE_REGEX.exec`: the two groups, if the text is a header with them. -/
def exec (signatureHeader : String) : Option (List Char × List Char) :=
  let rest := signatureHeader.toList.drop 2
  let digits := rest.takeWhile Char.isDigit
  let hex := (rest.dropWhile Char.isDigit).drop 4
  if signatureHeader = header digits hex ∧ digits ≠ [] ∧ hex ≠ [] ∧ hex.all isHexDigit = true then
    some (digits, hex)
  else none

section Service

variable (hmac : Hmac) (secret : String)

def sign (body : String) (nowSeconds : Nat) : WebhookHeaders :=
  let digest := (hmac secret (payload nowSeconds body)).hex
  { timestamp := toString nowSeconds
    signature := "t=" ++ toString nowSeconds ++ ",v1=" ++ String.ofList digest }

def verify (body signatureHeader : String) (nowSeconds : Nat) : Bool :=
  match exec signatureHeader with
  | none => false
  | some (tsStr, receivedHex) =>
    match parseInt tsStr with
    -- an infinite delta
    | none => false
    | some ts =>
      let delta := ((nowSeconds : Int) - ts).natAbs
      if TIMESTAMP_TOLERANCE_S ≤ delta then false
      else
        let expectedDigest := (hmac secret (payload ts body)).hex
        let expectedBuf := hexBytes expectedDigest
        let receivedBuf := hexBytes receivedHex
        if expectedBuf.length ≠ receivedBuf.length then false
        -- `timingSafeEqual`
        else expectedBuf == receivedBuf

end Service

/-! ## Headers -/

/-- What the expression asks of the groups. -/
structure Groups (digits hex : List Char) : Prop where
  digits : IsNumeral digits
  nonempty : hex ≠ []
  hex : ∀ c ∈ hex, isHexDigit c = true

theorem toList_header (digits hex : List Char) :
    (header digits hex).toList = 't' :: '=' :: (digits ++ ',' :: 'v' :: '1' :: '=' :: hex) := by
  simp [header]

/-- Digits end at a character that is none. -/
theorem span_digits {digits : List Char} (hdigits : ∀ c ∈ digits, c.isDigit = true) {c : Char}
    (hc : c.isDigit = false) (rest : List Char) :
    (digits ++ c :: rest).takeWhile Char.isDigit = digits ∧
      (digits ++ c :: rest).dropWhile Char.isDigit = c :: rest := by
  rw [List.takeWhile_append_of_pos hdigits, List.dropWhile_append_of_pos hdigits,
    List.takeWhile_cons_of_neg (by simp [hc]), List.dropWhile_cons_of_neg (by simp [hc]),
    List.append_nil]
  exact ⟨rfl, rfl⟩

theorem exec_header {digits hex : List Char} (h : Groups digits hex) :
    exec (header digits hex) = some (digits, hex) := by
  obtain ⟨htake, hdrop⟩ := span_digits h.digits.2 (c := ',') rfl ('v' :: '1' :: '=' :: hex)
  rw [exec, toList_header]
  simp only [List.drop_succ_cons, List.drop_zero, htake, hdrop]
  exact if_pos ⟨trivial, h.digits.1, h.nonempty, List.all_eq_true.mpr h.hex⟩

theorem exec_eq_some {signatureHeader : String} {digits hex : List Char}
    (h : exec signatureHeader = some (digits, hex)) :
    signatureHeader = header digits hex ∧ Groups digits hex := by
  rw [exec] at h
  split at h
  case isFalse => cases h
  case isTrue hmatch =>
    obtain ⟨hheader, hdigits, hnonempty, hhex⟩ := hmatch
    obtain ⟨rfl, rfl⟩ := Prod.mk.inj (Option.some.inj h)
    exact ⟨hheader, ⟨hdigits, List.all_eq_true.mp List.all_takeWhile⟩, hnonempty,
      List.all_eq_true.mp hhex⟩

/-- Two headers are equal only if their groups are. -/
theorem header_inj {digits hex digits' hex' : List Char} (h : Groups digits hex)
    (h' : Groups digits' hex') (heq : header digits hex = header digits' hex') :
    digits = digits' ∧ hex = hex' := by
  have hgroups := exec_header h
  rw [heq, exec_header h'] at hgroups
  exact Prod.mk.inj (Option.some.inj hgroups.symm)

/-! ## The signed text -/

/-- The first dot ends the second. -/
theorem payload_inj {ts ts' : Nat} {body body' : String}
    (h : payload ts body = payload ts' body') : ts = ts' ∧ body = body' := by
  have hchars : ∀ (n : Nat) (text : String),
      (payload n text).toList = Nat.toDigits 10 n ++ '.' :: text.toList := by
    intro n text
    rw [payload, String.toList_append, String.toList_append, Nat.toString_eq_repr,
      Nat.toList_repr, List.append_assoc]
    rfl
  have heq : Nat.toDigits 10 ts ++ '.' :: body.toList =
      Nat.toDigits 10 ts' ++ '.' :: body'.toList := by
    rw [← hchars, ← hchars, h]
  obtain ⟨htake, hdrop⟩ := span_digits (isNumeral_toDigits ts).2 (c := '.') rfl body.toList
  obtain ⟨htake', hdrop'⟩ := span_digits (isNumeral_toDigits ts').2 (c := '.') rfl body'.toList
  rw [heq] at htake hdrop
  have hdigits : Nat.toDigits 10 ts' = Nat.toDigits 10 ts := htake'.symm.trans htake
  have hrest : '.' :: body'.toList = '.' :: body.toList := hdrop'.symm.trans hdrop
  constructor
  · rw [← value_toDigits ts, ← hdigits, value_toDigits]
  · exact String.toList_inj.mp (List.cons.inj hrest).2.symm

/-- The groups of a header are those of a near second `ts` and of the HMAC over it. -/
structure Accepted (hmac : Hmac) (secret body : String) (now : Nat) (digits hex : List Char)
    (ts : Nat) : Prop where
  groups : Groups digits hex
  timestamp : parseInt digits = some ts
  near : ((now : Int) - ts).natAbs < TIMESTAMP_TOLERANCE_S
  bytes : hexBytes hex = (hmac secret (payload ts body)).bytes

section Verify

variable {hmac : Hmac} {secret body : String} {now : Nat}

/-- The header that `sign` makes. -/
theorem sign_signature (ts : Nat) :
    (sign hmac secret body ts).signature =
      header (Nat.toDigits 10 ts) (hmac secret (payload ts body)).hex := by
  rw [sign, header, Nat.toString_eq_repr, Nat.repr_eq_ofList_toDigits]

/-- What `sign` writes down has the groups of the expression. -/
theorem groups_sign (ts : Nat) :
    Groups (Nat.toDigits 10 ts) (hmac secret (payload ts body)).hex where
  digits := isNumeral_toDigits ts
  nonempty := by
    -- 32 bytes have 64 digits
    intro hnil
    have hlength := length_hexChars (hmac secret (payload ts body)).bytes
    rw [(hmac secret (payload ts body)).length] at hlength
    rw [Digest.hex] at hnil
    rw [hnil] at hlength
    cases hlength
  hex _ hc := isHexDigit_of_mem_hexChars hc

/-- A header is accepted if its second is near and its bytes are the HMAC. -/
theorem verify_header_iff {digits hex : List Char} (h : Groups digits hex) :
    verify hmac secret body (header digits hex) now = true ↔
      ∃ ts, parseInt digits = some ts ∧ ((now : Int) - ts).natAbs < TIMESTAMP_TOLERANCE_S ∧
        hexBytes hex = (hmac secret (payload ts body)).bytes := by
  rw [verify, exec_header h]
  dsimp only
  cases hts : parseInt digits with
  | none =>
    -- Infinity is near to no second
    constructor
    · intro hfalse
      cases hfalse
    · rintro ⟨ts, hsome, -⟩
      cases hsome
  | some ts =>
    dsimp only
    rw [Digest.hex, hexBytes_hexChars]
    constructor
    · intro htrue
      -- the checks one after another: the second, the length, the bytes
      split at htrue
      · cases htrue
      · rename_i hnear
        split at htrue
        · cases htrue
        · exact ⟨ts, rfl, by omega, (eq_of_beq htrue).symm⟩
    · rintro ⟨ts', hts', hnear, hbytes⟩
      obtain rfl : ts = ts' := Option.some.inj hts'
      -- equal bytes are as many
      rw [if_neg (by omega), ← hbytes, if_neg (fun hne => hne rfl)]
      exact beq_self_eq_true _

/-- Exactly the accepted headers. -/
theorem verify_iff {signatureHeader : String} :
    verify hmac secret body signatureHeader now = true ↔
      ∃ digits hex ts, signatureHeader = header digits hex ∧
        Accepted hmac secret body now digits hex ts := by
  constructor
  · intro h
    cases hexec : exec signatureHeader with
    | none =>
      rw [verify, hexec] at h
      cases h
    | some groups =>
      obtain ⟨hheader, hgroups⟩ := exec_eq_some hexec
      rw [hheader] at h
      obtain ⟨ts, hts, hnear, hbytes⟩ := (verify_header_iff hgroups).mp h
      exact ⟨groups.1, groups.2, ts, hheader, hgroups, hts, hnear, hbytes⟩
  · rintro ⟨digits, hex, ts, rfl, h⟩
    exact (verify_header_iff h.groups).mpr ⟨ts, h.timestamp, h.near, h.bytes⟩

end Verify

/-! ## Authenticity -/

section Authenticity

variable (hmac : Hmac) (secret body : String) (now : Nat)

/-- What was signed for a near second is accepted. What is accepted carries the HMAC
of its second and its body, a text that no other second and body have: if it was
made by signing, then that second and body were signed, or two texts have the
same HMAC. -/
theorem verify_authentic (hnow : now < safe) :
    (∀ ts < safe, ((now : Int) - ts).natAbs < TIMESTAMP_TOLERANCE_S →
      verify hmac secret body (sign hmac secret body ts).signature now = true) ∧
    ∀ h, verify hmac secret body h now = true →
      ∃ digits hex ts, h = header digits hex ∧ Accepted hmac secret body now digits hex ts ∧
        ts < safe + TIMESTAMP_TOLERANCE_S ∧
        (ts < safe ∨ value digits < safe → value digits = ts) ∧
        (∀ ts' body', payload ts' body' = payload ts body → ts' = ts ∧ body' = body) ∧
        ∀ signed : Set (Nat × String),
          (∃ p ∈ signed, hexBytes hex = (hmac secret (payload p.1 p.2)).bytes) →
          (∀ p ∈ signed, hmac secret (payload p.1 p.2) = hmac secret (payload ts body) →
            payload p.1 p.2 = payload ts body) →
          (ts, body) ∈ signed := by
  constructor
  · intro ts hts hnear
    rw [sign_signature, verify_header_iff (groups_sign ts)]
    exact ⟨ts, parseInt_toDigits hts, hnear, hexBytes_hexChars _⟩
  · intro h hverify
    obtain ⟨digits, hex, ts, hheader, haccepted⟩ := verify_iff.mp hverify
    have hfar : ts < safe + TIMESTAMP_TOLERANCE_S := by
      have hnear := haccepted.near
      omega
    -- below 2⁵³ the double is exact
    have hvalue : ts < safe ∨ value digits < safe → value digits = ts := by
      rintro (hlt | hlt)
      · exact value_of_parseInt_lt_safe haccepted.timestamp hlt
      · exact Option.some.inj ((parseInt_of_lt_safe hlt).symm.trans haccepted.timestamp)
    refine ⟨digits, hex, ts, hheader, haccepted, hfar, hvalue, fun _ _ => payload_inj, ?_⟩
    rintro signed ⟨p, hp, hbytes⟩ hcollide
    -- both digests are the bytes of the header
    have hdigest : hmac secret (payload p.1 p.2) = hmac secret (payload ts body) :=
      Digest.ext (hbytes.symm.trans haccepted.bytes)
    obtain ⟨hts, hbody⟩ := payload_inj (hcollide p hp hdigest)
    rw [← hts, ← hbody]
    exact hp

end Authenticity

/-- An HMAC to try the service with. -/
def zeroHmac : Hmac := fun _ _ => ⟨List.replicate 32 0, rfl⟩

theorem verify_authentic_five :
    7 < safe ∧ verify zeroHmac "key" "body" (sign zeroHmac "key" "body" 5).signature 7 = true :=
  have hsafe : 7 < safe := by decide +kernel
  ⟨hsafe, (verify_authentic zeroHmac "key" "body" 7 hsafe).1 5 (by decide +kernel) (by decide)⟩

/-! ## Canonical headers -/

/-- The second that a header gives. -/
def timestampOf (signatureHeader : String) : Option Nat :=
  (exec signatureHeader).bind fun groups => parseInt groups.1

/-- No zero leads, the digits spell a number that a double holds, and the
hexadecimal digits come in pairs. -/
def Canonical (signatureHeader : String) : Prop :=
  ∃ digits hex, exec signatureHeader = some (digits, hex) ∧ Plain digits ∧
    nearest 53 (value digits) = value digits ∧ hex.length % 2 = 0

theorem timestampOf_header {digits hex : List Char} (h : Groups digits hex) :
    timestampOf (header digits hex) = parseInt digits := by
  rw [timestampOf, exec_header h, Option.bind_some]

section Canonical

variable {hmac : Hmac} {secret body : String} {now : Nat}

/-- The spelling of an accepted header is that of `sign` exactly if it is canonical. -/
theorem eq_sign_iff {h : String} {ts : Nat} (hts : timestampOf h = some ts)
    (hok : verify hmac secret body h now = true) :
    h = (sign hmac secret body ts).signature ↔ Canonical h := by
  obtain ⟨digits, hex, ts', rfl, haccepted⟩ := verify_iff.mp hok
  have hexec := exec_header haccepted.groups
  obtain rfl : ts' = ts := by
    rw [timestampOf_header haccepted.groups, haccepted.timestamp] at hts
    exact Option.some.inj hts
  have hnearest := parseInt_eq_some haccepted.timestamp
  rw [sign_signature]
  constructor
  · intro heq
    obtain ⟨hdigits, hhex⟩ := header_inj haccepted.groups (groups_sign ts') heq
    have hvalue : value digits = ts' := by rw [hdigits, value_toDigits]
    refine ⟨digits, hex, hexec, hdigits ▸ plain_toDigits ts', hnearest.trans hvalue.symm, ?_⟩
    rw [hhex, Digest.hex, length_hexChars]
    omega
  · -- a canonical header has the digits and the digest that `sign` prints
    rintro ⟨digits', hex', hexec', hplain, hexact, heven⟩
    obtain ⟨rfl, rfl⟩ := Prod.mk.inj (Option.some.inj (hexec.symm.trans hexec'))
    have hvalue : value digits = ts' := hexact.symm.trans hnearest
    have hdigits : digits = Nat.toDigits 10 ts' := by
      rw [← hvalue, toDigits_value haccepted.groups.digits hplain]
    have hhex : hex = (hmac secret (payload ts' body)).hex := by
      rw [Digest.hex, ← haccepted.bytes, (hexChars_hexBytes_iff haccepted.groups.hex).mpr heven]
    exact congrArg₂ header hdigits hhex

/-- An accepted header is the one that `sign` makes for its second exactly if it is
canonical; and beside a canonical one, another is accepted for the second only if
it is not. -/
theorem verify_canonical (hmac : Hmac) (secret body : String) (now : Nat) {h : String} {ts : Nat}
    (hts : timestampOf h = some ts) (hok : verify hmac secret body h now = true) :
    (h = (sign hmac secret body ts).signature ↔ Canonical h) ∧
    ∀ h', timestampOf h' = some ts → verify hmac secret body h' now = true → Canonical h →
      (h' = h ↔ Canonical h') := by
  have hsign := eq_sign_iff hts hok
  refine ⟨hsign, fun h' hts' hok' hcanonical => ?_⟩
  rw [hsign.mpr hcanonical]
  exact eq_sign_iff hts' hok'

end Canonical

/-- The header that `sign` makes at 5, and two more that are accepted for it: with a
leading zero, and with half a byte at the end. -/
theorem verify_not_canonical :
    let signed := (sign zeroHmac "key" "body" 5).signature
    let digest := (zeroHmac "key" (payload 5 "body")).hex
    let zeroed := header ['0', '5'] digest
    let halved := header ['5'] (digest ++ ['f'])
    (∀ h ∈ [signed, zeroed, halved],
      timestampOf h = some 5 ∧ verify zeroHmac "key" "body" h 7 = true) ∧
    signed ≠ zeroed ∧ signed ≠ halved ∧ zeroed ≠ halved := by
  decide +kernel

theorem verify_canonical_five :
    let signed := (sign zeroHmac "key" "body" 5).signature
    let zeroed := header ['0', '5'] (zeroHmac "key" (payload 5 "body")).hex
    (signed = signed ↔ Canonical signed) ∧ (zeroed = signed ↔ Canonical zeroed) :=
  ⟨(verify_canonical zeroHmac "key" "body" 7 (by decide +kernel) (by decide +kernel)).1,
    (verify_canonical zeroHmac "key" "body" 7 (by decide +kernel) (by decide +kernel)).1⟩

end SchedulingService.Webhook
