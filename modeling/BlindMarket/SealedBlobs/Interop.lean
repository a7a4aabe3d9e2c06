import BlindMarket.SealedBlobs.Ciphers

/-!
# Who opens whose blobs

The parties seal alike: from the same draws they make the same bytes. They open
alike but for the shortest blobs, which three of them refuse, and a private key
written with `0x`, which one of them does not read.
-/
namespace SealedBlobs

open Checked Octets

variable {lib : Library} {iv key plaintext blob ephemeral pub shared : Bytes} {hex : Text}

/-! ## Keys as text -/

theorem toHex_shape (hb : b ≠ []) : ∃ d₁ d₂ rest, toHex b = d₁ :: d₂ :: rest ∧
    d₂ ≠ 'x' ∧ d₂ ≠ 'X' := by
  obtain ⟨x, b, rfl⟩ := List.exists_cons_of_ne_nil hb
  have hdigit := hexChar_ne_x (n := x.toNat % 16) (Nat.mod_lt _ (by omega))
  exact ⟨_, _, _, toHex_cons x b, hdigit.1, hdigit.2⟩

theorem strip0x_toHex {b : Bytes} (hb : b ≠ []) : strip0x (toHex b) = toHex b := by
  obtain ⟨d₁, d₂, rest, heq, hx, -⟩ := toHex_shape hb
  rw [heq]
  unfold strip0x
  split
  · next hhex =>
    cases hhex
    exact absurd rfl hx
  · rfl

theorem strip_toHex {b : Bytes} (hb : b ≠ []) : Sdk.strip (toHex b) = toHex b := by
  obtain ⟨d₁, d₂, rest, heq, hx, hX⟩ := toHex_shape hb
  rw [heq]
  unfold Sdk.strip
  split
  · next hhex =>
    cases hhex
    exact absurd rfl hx
  · next hhex =>
    cases hhex
    exact absurd rfl hX
  · rfl

/-- The text of some bytes, with `0x` or without. -/
def Spells (hex : Text) (b : Bytes) : Prop := hex = toHex b ∨ hex = prefix0x (toHex b)

/-- The digits of a private key as the party reads them. -/
def Party.Reads (p : Party) (hex : Text) (priv : Bytes) : Prop :=
  hex = toHex priv ∨ hex = prefix0x (toHex priv) ∧ p.readsPrefixed = true

theorem Spells.strip0x {b : Bytes} (h : Spells hex b) (hb : b ≠ []) : strip0x hex = toHex b := by
  rcases h with rfl | rfl
  · exact strip0x_toHex hb
  · rfl

theorem Spells.strip {b : Bytes} (h : Spells hex b) (hb : b ≠ []) : Sdk.strip hex = toHex b := by
  rcases h with rfl | rfl
  · exact strip_toHex hb
  · rfl

/-- `0x` is read as no digits at all. -/
theorem fromHex_prefix0x (hex : Text) : fromHex (prefix0x hex) = [] := by
  have hnone : hexByte '0' 'x' = none := by decide
  simp [prefix0x, fromHex, hnone]

theorem take_toHex (hhead : pub.head? = some 4) : (toHex pub).take 2 = ['0', '4'] := by
  obtain ⟨rest, rfl⟩ : ∃ rest, pub = 4 :: rest := by
    cases pub with
    | nil => cases hhead
    | cons x rest =>
      cases hhead
      exact ⟨rest, rfl⟩
  rfl

theorem isUncompressed_toHex (hlen : pub.length = 65) (hhead : pub.head? = some 4) :
    Web.isUncompressed (toHex pub) = true := by
  have hdigits : ∀ b : Bytes, (toHex b).all (fun ch => (hexValue ch).isSome) = true := by
    intro b
    induction b with
    | nil => rfl
    | cons x b ih =>
      have hlt := x.toNat_lt
      rw [toHex_cons, List.all_cons, List.all_cons, hexValue_hexChar (by omega),
        hexValue_hexChar (by omega), ih]
      rfl
  simp [Web.isUncompressed, take_toHex hhead, hdigits, hlen]

/-! ## ECIES blobs -/

theorem sharedSecret_eq_ok {a B P : Bytes} (ha : a.length = 32)
    (h : lib.computeSharedSecret a B = some P) :
    lib.sharedSecret (prefix0x (toHex a)) (prefix0x (toHex B)) = .ok P := by
  simp [Library.sharedSecret, Library.getBytes, prefix0x, ofHex_toHex, orThrown, orElse, require,
    keyLength, ha, h]

/-- A secp256k1 key pair. -/
structure KeyPair (lib : Library) where
  priv : Bytes
  pub : Bytes
  length_priv : priv.length = 32
  publicKey_priv : lib.publicKey priv = some pub

/-- What the sealer of a blob draws: a key pair and an IV. -/
structure Draw (lib : Library) extends KeyPair lib where
  iv : Bytes
  length_iv : iv.length = 12

theorem KeyPair.pub_shape (hlib : lib.Lawful) (pair : KeyPair lib) :
    pair.pub.length = 65 ∧ pair.pub.head? = some 4 := hlib.publicKey_shape _ _ pair.publicKey_priv

theorem KeyPair.pub_ne_nil (hlib : lib.Lawful) (pair : KeyPair lib) : pair.pub ≠ [] := by
  have hlen := (pair.pub_shape hlib).1
  intro hnil
  rw [hnil] at hlen
  cases hlen

theorem KeyPair.priv_ne_nil (pair : KeyPair lib) : pair.priv ≠ [] := by
  have hlen := pair.length_priv
  intro hnil
  rw [hnil] at hlen
  cases hlen

/-- Two key pairs have the X coordinate `shared` in common. -/
structure Exchange (ours theirs : KeyPair lib) (shared : Bytes) : Prop where
  point : ∃ P : Bytes, (P.length = 65 ∧ P.head? = some 4) ∧ (P.drop 1).take 32 = shared ∧
    lib.computeSharedSecret ours.priv theirs.pub = some P ∧
    lib.computeSharedSecret theirs.priv ours.pub = some P
  secret : lib.computeSecret ours.priv theirs.pub = some shared ∧
    lib.computeSecret theirs.priv ours.pub = some shared

theorem exchange (hlib : lib.Lawful) (ours theirs : KeyPair lib) :
    ∃ shared, Exchange ours theirs shared := by
  obtain ⟨P, hlen, hhead, hP, hP', hX, hX'⟩ := hlib.ecdh _ _ _ _ ours.length_priv
    theirs.length_priv ours.publicKey_priv theirs.publicKey_priv
  exact ⟨_, ⟨P, ⟨hlen, hhead⟩, rfl, hP, hP'⟩, hX, hX'⟩

/-- The key of an exchange. -/
def exchangeKey (lib : Library) (shared : Bytes) : Bytes := derivedKey lib shared eciesHkdfInfo

theorem length_exchangeKey (hlib : lib.Lawful) (shared : Bytes) :
    (exchangeKey lib shared).length = 32 := hlib.hkdf_length _ _ _

namespace Exchange

variable {ours theirs recipient : KeyPair lib} {draw : Draw lib}

/-- The same exchange, the ends changed over. -/
theorem symm (h : Exchange ours theirs shared) : Exchange theirs ours shared := by
  obtain ⟨P, hshape, hshared, hP, hP'⟩ := h.point
  exact ⟨⟨P, hshape, hshared, hP', hP⟩, h.secret.2, h.secret.1⟩

/-- Through ethers, one end has the X coordinate. -/
theorem sdk_shared (h : Exchange ours theirs shared) :
    Sdk.deriveSharedSecretX lib (prefix0x (toHex ours.priv)) (prefix0x (toHex theirs.pub)) =
      .ok shared := by
  obtain ⟨P, ⟨hlen, hhead⟩, rfl, hP, -⟩ := h.point
  simp only [Sdk.deriveSharedSecretX, sharedSecret_eq_ok ours.length_priv hP, ok_bind]
  rw [require_pos ⟨hlen, hhead⟩]
  rfl

theorem web_shared (h : Exchange ours theirs shared) (hhex : strip0x hex = toHex ours.priv) :
    Web.deriveSharedSecretX lib hex (prefix0x (toHex theirs.pub)) = .ok shared := by
  obtain ⟨P, ⟨hlen, hhead⟩, rfl, hP, -⟩ := h.point
  have hpub : strip0x (prefix0x (toHex theirs.pub)) = toHex theirs.pub := rfl
  simp only [Web.deriveSharedSecretX, hhex, hpub, sharedSecret_eq_ok ours.length_priv hP, ok_bind]
  rw [require_pos ⟨hlen, hhead⟩]
  rfl

theorem mcp_shared (h : Exchange ours theirs shared) : ∃ P : Bytes,
    lib.sharedSecret (prefix0x (toHex ours.priv)) (prefix0x (toHex theirs.pub)) = .ok P ∧
      (P.drop 1).take 32 = shared := by
  obtain ⟨P, -, hshared, hP, -⟩ := h.point
  exact ⟨P, sharedSecret_eq_ok ours.length_priv hP, hshared⟩

/-- Every party makes the same blob. -/
theorem encrypts (hlib : lib.Lawful) (h : Exchange draw.toKeyPair recipient shared)
    (hhex : Spells hex recipient.pub) (payload : Bytes) (i : Party) :
    i.eciesEncrypt lib draw.priv draw.iv payload hex =
      .ok (draw.pub ++ nodeSeal lib draw.iv payload (exchangeKey lib shared)) := by
  obtain ⟨hpub65, hpub4⟩ := recipient.pub_shape hlib
  have heph65 := (draw.pub_shape hlib).1
  have heph := draw.publicKey_priv
  have hpub := recipient.pub_ne_nil hlib
  have haes : ∀ p : Party, p.aesEncrypt lib draw.iv payload (exchangeKey lib shared) =
      .ok (nodeSeal lib draw.iv payload (exchangeKey lib shared)) := fun p =>
    aesEncrypt_eq hlib (length_exchangeKey hlib shared) draw.length_iv p payload
  have hbackend : Backend.eciesEncrypt lib draw.priv draw.iv payload hex =
      .ok (draw.pub ++ nodeSeal lib draw.iv payload (exchangeKey lib shared)) := by
    have hseal := haes .backend
    simp only [Party.aesEncrypt, exchangeKey] at hseal
    simp [Backend.eciesEncrypt, hhex.strip0x hpub, fromHex_toHex, hpub65, x25519PubkeyLength,
      Backend.eciesEncryptSecp256k1, h.secret.1, heph, orThrown, orElse, hseal, exchangeKey]
  cases i with
  | sdk =>
    have hseal := haes .sdk
    simp only [Party.aesEncrypt, exchangeKey] at hseal
    simp [Party.eciesEncrypt, Sdk.eciesEncrypt, Sdk.assertUncompressedPubKey, hhex.strip hpub,
      take_toHex hpub4, hpub65, require, h.sdk_shared, hseal, heph, orThrown, orElse, heph65,
      eciesPubkeyLength, exchangeKey]
  | web =>
    have hseal := haes .web
    simp only [Party.aesEncrypt, exchangeKey] at hseal
    have hdrawn : strip0x (prefix0x (toHex draw.priv)) = toHex draw.priv := rfl
    simp [Party.eciesEncrypt, Web.eciesEncrypt, hhex.strip0x hpub, isUncompressed_toHex hpub65 hpub4,
      require, h.web_shared hdrawn, hseal, heph, orThrown, orElse, heph65, eciesPubkeyLength,
      exchangeKey]
  | backend => exact hbackend
  | worker => exact hbackend
  | mcp =>
    have hseal := haes .mcp
    simp only [Party.aesEncrypt, exchangeKey] at hseal
    obtain ⟨P, hP, rfl⟩ := h.mcp_shared
    simp [-List.drop_one, Party.eciesEncrypt, Mcp.eciesEncrypt, hhex.strip0x hpub, hP, heph,
      orThrown, orElse, hseal, exchangeKey]

/-- The blob of an exchange, opened with the recipient's private key in digits that the party
reads. -/
theorem decrypts (hlib : lib.Lawful) (h : Exchange draw.toKeyPair recipient shared) (j : Party)
    (hhex : j.Reads hex recipient.priv) {sealedData : Bytes}
    (hlen : j.aesMin ≤ sealedData.length) :
    j.eciesDecrypt lib (draw.pub ++ sealedData) hex =
      j.aesDecrypt lib sealedData (exchangeKey lib shared) := by
  have heph65 := (draw.pub_shape hlib).1
  have hpriv := recipient.priv_ne_nil
  have hspells : Spells hex recipient.priv := hhex.imp_right And.left
  have htake : (draw.pub ++ sealedData).take eciesPubkeyLength = draw.pub := List.take_left' heph65
  have hdrop : (draw.pub ++ sealedData).drop eciesPubkeyLength = sealedData :=
    List.drop_left' heph65
  have htotal : (draw.pub ++ sealedData).length = 65 + sealedData.length := by
    rw [List.length_append, heph65]
  have hbackend : ∀ digits, digits = toHex recipient.priv → 29 ≤ sealedData.length →
      Backend.eciesDecrypt lib (draw.pub ++ sealedData) digits =
        Backend.aesDecrypt lib sealedData (exchangeKey lib shared) := by
    rintro digits rfl hlen
    rw [Backend.eciesDecrypt, if_neg (by omega), if_neg (by
      simp only [Backend.eciesMinBlob, eciesPubkeyLength, ivLength, tagLength]
      omega), Backend.eciesDecryptSecp256k1, require_pos (by
      simp only [Backend.eciesMinBlob, eciesPubkeyLength, ivLength, tagLength]
      omega)]
    simp only [ok_bind, htake, hdrop, fromHex_toHex, h.secret.2, orThrown, orElse, exchangeKey]
  cases j with
  | sdk =>
    simp only [Party.aesMin, Party.opensEmpty, if_true] at hlen
    rw [Party.eciesDecrypt, Sdk.eciesDecrypt, require_pos (by
      simp only [Sdk.eciesMinBlob, Sdk.aesMinBlob, eciesPubkeyLength, ivLength, tagLength]
      omega)]
    simp only [ok_bind, htake, hdrop, hspells.strip hpriv, h.symm.sdk_shared, exchangeKey,
      Party.aesDecrypt]
  | web =>
    simp only [Party.aesMin, Party.opensEmpty, if_true] at hlen
    rw [Party.eciesDecrypt, Web.eciesDecrypt, require_pos (by
      simp only [eciesPubkeyLength, ivLength, tagLength]
      omega)]
    simp only [ok_bind, htake, hdrop, h.symm.web_shared (hspells.strip0x hpriv), exchangeKey,
      Party.aesDecrypt]
  | backend =>
    simp only [Party.Reads, Party.readsPrefixed, Bool.false_eq_true, and_false, or_false] at hhex
    exact hbackend _ hhex hlen
  | worker => exact hbackend _ (hspells.strip0x hpriv) hlen
  | mcp =>
    simp only [Party.aesMin, Party.opensEmpty, Bool.false_eq_true, if_false] at hlen
    rw [Party.eciesDecrypt, Mcp.eciesDecrypt, require_pos (by
      simp only [eciesPubkeyLength, ivLength, tagLength]
      omega)]
    simp only [ok_bind, htake, hdrop, hspells.strip0x hpriv, fromHex_toHex, h.secret.2, orThrown,
      orElse, exchangeKey, Party.aesDecrypt]

end Exchange

theorem length_aesDecrypt (hlib : lib.Lawful) (p : Party)
    (h : p.aesDecrypt lib blob key = .ok plaintext) : plaintext.length + 28 = blob.length := by
  obtain ⟨hkey, -, iv, hiv, rfl⟩ := (opens_iff hlib p blob key plaintext).1 h
  rw [length_nodeSeal hlib hkey hiv]
  omega

/-- Which of its two curves the backend takes a blob to be for is a matter of its length, and so is
the length of what it opens to. -/
theorem Backend.length_eciesDecrypt (hlib : lib.Lawful)
    (h : Backend.eciesDecrypt lib blob hex = .ok plaintext) :
    blob = [] ∧ plaintext = [] ∨
      61 ≤ blob.length ∧ blob.length < 94 ∧ plaintext.length + 60 = blob.length ∨
      94 ≤ blob.length ∧ plaintext.length + 93 = blob.length := by
  have hmin : Backend.x25519MinBlob = 61 ∧ Backend.eciesMinBlob = 94 := ⟨rfl, rfl⟩
  rw [Backend.eciesDecrypt, hmin.1, hmin.2] at h
  split at h
  · next hnil =>
    cases h
    exact .inl ⟨List.length_eq_zero_iff.1 hnil, rfl⟩
  split at h
  · next hrange =>
    simp only [Backend.eciesDecryptX25519, seq_eq_ok, require_eq_ok, orThrown_eq_ok,
      exists_const] at h
    obtain ⟨-, x25519PrivKey, -, sharedSecret, -, hopen⟩ := h
    have hlen := length_aesDecrypt hlib .backend hopen
    rw [List.length_drop, x25519PubkeyLength] at hlen
    exact .inr (.inl ⟨hrange.1, hrange.2, by omega⟩)
  · simp only [Backend.eciesDecryptSecp256k1, seq_eq_ok, require_eq_ok, orThrown_eq_ok,
      exists_const, hmin.2] at h
    obtain ⟨hlong, sharedSecret, -, hopen⟩ := h
    have hlen := length_aesDecrypt hlib .backend hopen
    rw [List.length_drop, eciesPubkeyLength] at hlen
    exact .inr (.inr ⟨hlong, by omega⟩)

/-- Given the private key with `0x`, the backend has none. -/
theorem Backend.eciesDecrypt_prefixed (hlib : lib.Lawful) (hblob : 94 ≤ blob.length) (hex : Text) :
    Backend.eciesDecrypt lib blob (prefix0x hex) = .error .thrown := by
  have hmin : Backend.x25519MinBlob = 61 ∧ Backend.eciesMinBlob = 94 := ⟨rfl, rfl⟩
  rw [Backend.eciesDecrypt, if_neg (by omega), if_neg (by omega), Backend.eciesDecryptSecp256k1,
    require_pos (by omega)]
  simp [fromHex_prefix0x, hlib.computeSecret_nil, orThrown, orElse]

/-- What one party seals to a secp256k1 key, another opens to the same with the private key: unless
there is nothing in it, which only the SDK and the web app open, or the backend is given the key
with `0x`. -/
theorem ecies_interop (hlib : lib.Lawful) (draw : Draw lib) (recipient : KeyPair lib)
    {pubHex privHex : Text} (hpubHex : Spells pubHex recipient.pub)
    (hprivHex : Spells privHex recipient.priv) (i j : Party) (payload : Bytes) : ∃ blob : Bytes,
    i.eciesEncrypt lib draw.priv draw.iv payload pubHex = .ok blob ∧
      (j.eciesDecrypt lib blob privHex = .ok payload ↔
        (payload ≠ [] ∨ j.opensEmpty = true) ∧
          (privHex = toHex recipient.priv ∨ j.readsPrefixed = true)) := by
  obtain ⟨shared, hexch⟩ := exchange hlib draw.toKeyPair recipient
  have hkey := length_exchangeKey hlib shared
  have hiv := draw.length_iv
  refine ⟨_, hexch.encrypts hlib hpubHex payload i, ?_⟩
  have hsealed := length_nodeSeal hlib hkey hiv payload
  have heph65 := (draw.pub_shape hlib).1
  have hopens := opens_iff hlib j (nodeSeal lib draw.iv payload (exchangeKey lib shared))
    (exchangeKey lib shared) payload
  by_cases hempty : payload ≠ [] ∨ j.opensEmpty = true
  · have hmin : j.aesMin ≤ (nodeSeal lib draw.iv payload (exchangeKey lib shared)).length := by
      rw [hsealed, Party.aesMin]
      split
      · omega
      · next hno =>
        have hpos := List.length_pos_iff.2 (hempty.resolve_right hno)
        omega
    by_cases hread : privHex = toHex recipient.priv ∨ j.readsPrefixed = true
    · have hhex : j.Reads privHex recipient.priv := by
        rcases hprivHex with heq | heq
        · exact .inl heq
        · exact hread.imp_right (And.intro heq)
      rw [hexch.decrypts hlib j hhex hmin, hopens]
      exact ⟨fun _ => ⟨hempty, hread⟩, fun _ => ⟨hkey, hempty, draw.iv, hiv, rfl⟩⟩
    · -- Only the backend does not read the prefix.
      refine iff_of_false ?_ (hread ∘ And.right)
      obtain ⟨hne, hprefixed⟩ := not_or.1 hread
      obtain rfl : j = .backend := by
        cases j <;> simp_all [Party.readsPrefixed]
      rw [Party.eciesDecrypt, hprivHex.resolve_left hne, Backend.eciesDecrypt_prefixed hlib]
      · simp
      · have hpos := List.length_pos_iff.2 (hempty.resolve_right (by simp [Party.opensEmpty]))
        rw [List.length_append, heph65, hsealed]
        omega
  · refine iff_of_false ?_ (hempty ∘ And.left)
    simp only [not_or, not_not, Bool.not_eq_true] at hempty
    obtain ⟨rfl, hno⟩ := hempty
    have htotal : (draw.pub ++ nodeSeal lib draw.iv [] (exchangeKey lib shared)).length = 93 := by
      rw [List.length_append, heph65, hsealed]
      rfl
    have hbackend : ∀ digits, Backend.eciesDecrypt lib
        (draw.pub ++ nodeSeal lib draw.iv [] (exchangeKey lib shared)) digits ≠ .ok [] := by
      intro digits h
      rcases Backend.length_eciesDecrypt hlib h with ⟨hnil, -⟩ | ⟨-, -, hlen⟩ | ⟨hlong, -⟩
      · rw [hnil] at htotal
        cases htotal
      · rw [htotal] at hlen
        cases hlen
      · omega
    cases j with
    | sdk => cases hno
    | web => cases hno
    | backend => exact hbackend _
    | worker => exact hbackend _
    | mcp =>
      simp only [Party.eciesDecrypt, Mcp.eciesDecrypt, seq_eq_ok, require_eq_ok, exists_const,
        htotal, eciesPubkeyLength, ivLength, tagLength]
      omega

namespace OnRecord

def draw : Draw library where
  priv := ofNumber 32 1
  pub := (multiple 1).getD []
  length_priv := length_ofNumber _ _
  publicKey_priv := rfl
  iv := OnRecord.iv
  length_iv := length_ofNumber _ _

def pair2 : KeyPair library where
  priv := ofNumber 32 2
  pub := (multiple 2).getD []
  length_priv := length_ofNumber _ _
  publicKey_priv := rfl

end OnRecord

/-- The MCP server wraps a key, and a worker opens it. -/
theorem ecies_interop_onRecord : ∃ blob : Bytes,
    Party.mcp.eciesEncrypt OnRecord.library OnRecord.draw.priv OnRecord.draw.iv OnRecord.aesKey
        (toHex OnRecord.pair2.pub) = .ok blob ∧
      (Party.worker.eciesDecrypt OnRecord.library blob (prefix0x (toHex OnRecord.pair2.priv)) =
          .ok OnRecord.aesKey ↔
        (OnRecord.aesKey ≠ [] ∨ Party.worker.opensEmpty = true) ∧
          (prefix0x (toHex OnRecord.pair2.priv) = toHex OnRecord.pair2.priv ∨
            Party.worker.readsPrefixed = true)) :=
  ecies_interop OnRecord.lawful OnRecord.draw OnRecord.pair2 (.inl rfl) (.inr rfl) .mcp .worker
    OnRecord.aesKey

/-- What the backend seals to an Ed25519 key it opens again only if it is short: a longer payload
makes a blob as long as those for the other curve. -/
theorem x25519_round_trip (hlib : lib.Lawful) {seed : Bytes}
    (hpub : lib.ed25519PublicKey seed = some pub) (hdrawn : ephemeral.length = 32)
    (hiv : iv.length = 12) {pubHex : Text} (hpubHex : Spells pubHex pub) (payload : Bytes) :
    ∃ blob : Bytes, Backend.eciesEncrypt lib ephemeral iv payload pubHex = .ok blob ∧
      (Backend.eciesDecrypt lib blob (toHex seed) = .ok payload ↔
        1 ≤ payload.length ∧ payload.length ≤ 33) := by
  obtain ⟨hseed, hlen⟩ := hlib.ed25519_shape _ _ hpub
  obtain ⟨a, ha, hsecret, hmont⟩ := hlib.montgomery _ _ hpub
  obtain ⟨K, hK, hK'⟩ := hlib.x25519_shared _ _ hdrawn ha
  have hne : pub ≠ [] := by
    rintro rfl
    cases hlen
  have hkey : (derivedKey lib K eciesX25519HkdfInfo).length = 32 := hlib.hkdf_length _ _ _
  have heph := hlib.x25519_length _ hdrawn
  have hseal := aesEncrypt_eq hlib hkey hiv .backend payload
  simp only [Party.aesEncrypt] at hseal
  have henc : Backend.eciesEncrypt lib ephemeral iv payload pubHex =
      .ok (lib.x25519PublicKey ephemeral ++
        nodeSeal lib iv payload (derivedKey lib K eciesX25519HkdfInfo)) := by
    simp [Backend.eciesEncrypt, hpubHex.strip0x hne, fromHex_toHex, hlen, x25519PubkeyLength,
      Backend.eciesEncryptX25519, hmont, hK, orThrown, orElse, hseal]
  have htotal : (lib.x25519PublicKey ephemeral ++
      nodeSeal lib iv payload (derivedKey lib K eciesX25519HkdfInfo)).length =
        60 + payload.length := by
    rw [List.length_append, heph, length_nodeSeal hlib hkey hiv]
    omega
  refine ⟨_, henc, ?_, ?_⟩
  · intro h
    rcases Backend.length_eciesDecrypt hlib h with ⟨hnil, -⟩ | ⟨hlow, hhigh, -⟩ | ⟨-, hlong⟩
    · rw [hnil] at htotal
      simp only [List.length_nil] at htotal
      omega
    · omega
    · omega
  · rintro ⟨hlow, hhigh⟩
    have hmin : Backend.x25519MinBlob = 61 ∧ Backend.eciesMinBlob = 94 := ⟨rfl, rfl⟩
    rw [Backend.eciesDecrypt, if_neg (by omega), if_pos (by omega), Backend.eciesDecryptX25519,
      require_pos (by omega)]
    simp only [ok_bind, fromHex_toHex, hsecret, orThrown, orElse, x25519PubkeyLength,
      List.take_left' heph, List.drop_left' heph, hK']
    exact (opens_iff hlib .backend _ _ _).2
      ⟨hkey, .inl (List.length_pos_iff.1 hlow), iv, hiv, rfl⟩

theorem x25519_round_trip_onRecord : ∃ blob : Bytes,
    Backend.eciesEncrypt OnRecord.library OnRecord.ephemeral OnRecord.iv OnRecord.aesKey
        (toHex OnRecord.edwards) = .ok blob ∧
      (Backend.eciesDecrypt OnRecord.library blob (toHex OnRecord.seed) = .ok OnRecord.aesKey ↔
        1 ≤ OnRecord.aesKey.length ∧ OnRecord.aesKey.length ≤ 33) :=
  x25519_round_trip OnRecord.lawful rfl (length_ofNumber _ _) (length_ofNumber _ _) (.inl rfl)
    OnRecord.aesKey

end SealedBlobs
