import BlindMarket.SealedBlobs.Envelope

/-!
# AES blobs

What the parties rely on of the ciphers, a library that has it, and which AES
blobs each party opens.
-/
namespace SealedBlobs

open Checked Octets

/-- What the four rely on. -/
structure Library.Lawful (lib : Library) : Prop where
  gcm_lengths : ∀ key iv plaintext : Bytes, key.length = 32 → iv.length = 12 →
    (lib.gcmEncrypt key iv plaintext).1.length = plaintext.length ∧
      (lib.gcmEncrypt key iv plaintext).2.length = 16
  /-- A ciphertext and its tag open to what they were made from, and nothing else opens. -/
  gcm_iff : ∀ key iv ciphertext tag plaintext : Bytes, key.length = 32 → iv.length = 12 →
    (lib.gcmDecrypt key iv ciphertext tag = some plaintext ↔
      lib.gcmEncrypt key iv plaintext = (ciphertext, tag))
  hkdf_length : ∀ ikm salt info : Bytes, (lib.hkdf ikm salt info 32).length = 32
  sha256_length : ∀ text : Text, (lib.sha256 text).length = 32
  publicKey_shape : ∀ a A : Bytes, lib.publicKey a = some A → A.length = 65 ∧ A.head? = some 4
  /-- Two key pairs share one point, and Node gives its X coordinate. -/
  ecdh : ∀ a A b B : Bytes, a.length = 32 → b.length = 32 → lib.publicKey a = some A →
    lib.publicKey b = some B →
    ∃ P : Bytes, P.length = 65 ∧ P.head? = some 4 ∧
      lib.computeSharedSecret a B = some P ∧ lib.computeSharedSecret b A = some P ∧
      lib.computeSecret a B = some ((P.drop 1).take 32) ∧
      lib.computeSecret b A = some ((P.drop 1).take 32)
  /-- No bytes are no private key. -/
  computeSecret_nil : ∀ B : Bytes, lib.computeSecret [] B = none
  ed25519_shape : ∀ seed A : Bytes, lib.ed25519PublicKey seed = some A →
    seed.length = 32 ∧ A.length = 32
  montgomery : ∀ seed A : Bytes, lib.ed25519PublicKey seed = some A → ∃ a : Bytes, a.length = 32 ∧
    lib.toMontgomerySecret seed = some a ∧ lib.toMontgomery A = some (lib.x25519PublicKey a)
  x25519_length : ∀ a : Bytes, a.length = 32 → (lib.x25519PublicKey a).length = 32
  x25519_shared : ∀ a b : Bytes, a.length = 32 → b.length = 32 → ∃ K : Bytes,
    lib.diffieHellman a (lib.x25519PublicKey b) = some K ∧
      lib.diffieHellman b (lib.x25519PublicKey a) = some K

/-! ## A library on record -/

/-- A number in so many bytes, most significant first. -/
def ofNumber (length n : Nat) : Bytes :=
  (List.range length).map fun i => UInt8.ofNat (n / 256 ^ (length - 1 - i))

@[simp] theorem length_ofNumber (length n : Nat) : (ofNumber length n).length = length := by
  simp [ofNumber]

/-- What AES-256-GCM made of a plaintext. -/
structure Sealing where
  key : Bytes
  iv : Bytes
  plaintext : Bytes
  ciphertext : Bytes
  tag : Bytes
  deriving DecidableEq

abbrev Sealings := List Sealing

def noTag : Bytes := List.replicate tagLength 0

namespace Sealings

variable (sealings : Sealings)

def ofPlaintext (key iv plaintext : Bytes) : Option Sealing :=
  sealings.find? fun r => r.key = key ∧ r.iv = iv ∧ r.plaintext = plaintext

def ofCiphertext (key iv ciphertext tag : Bytes) : Option Sealing :=
  sealings.find? fun r => r.key = key ∧ r.iv = iv ∧ r.ciphertext = ciphertext ∧ r.tag = tag

/-- The ciphertext on record, or else the plaintext itself. -/
def encrypt (key iv plaintext : Bytes) : Bytes × Bytes :=
  match sealings.ofPlaintext key iv plaintext with
  | some r => (r.ciphertext, r.tag)
  | none => (plaintext, noTag)

def decrypt (key iv ciphertext tag : Bytes) : Option Bytes :=
  match sealings.ofCiphertext key iv ciphertext tag with
  | some r => some r.plaintext
  | none =>
    if tag = noTag ∧ sealings.ofPlaintext key iv ciphertext = none then some ciphertext else none

/-- The records have the lengths of the cipher, and none contradicts another. -/
structure Consistent : Prop where
  lengths : ∀ r ∈ sealings, r.ciphertext.length = r.plaintext.length ∧ r.tag.length = 16
  tags : ∀ r ∈ sealings, r.tag ≠ noTag
  apart : ∀ r ∈ sealings, ∀ r' ∈ sealings, r.key = r'.key → r.iv = r'.iv →
    r.plaintext = r'.plaintext ∨ r.ciphertext = r'.ciphertext → r = r'

variable {sealings} {key iv plaintext ciphertext tag : Bytes} {r : Sealing}

theorem ofPlaintext_eq_some (h : sealings.ofPlaintext key iv plaintext = some r) :
    r ∈ sealings ∧ r.key = key ∧ r.iv = iv ∧ r.plaintext = plaintext :=
  ⟨List.mem_of_find?_eq_some h, by simpa using List.find?_some h⟩

theorem ofCiphertext_eq_some (h : sealings.ofCiphertext key iv ciphertext tag = some r) :
    r ∈ sealings ∧ r.key = key ∧ r.iv = iv ∧ r.ciphertext = ciphertext ∧ r.tag = tag :=
  ⟨List.mem_of_find?_eq_some h, by simpa using List.find?_some h⟩

theorem Consistent.ofPlaintext (h : sealings.Consistent) (hr : r ∈ sealings) :
    sealings.ofPlaintext r.key r.iv r.plaintext = some r := by
  cases hfind : sealings.ofPlaintext r.key r.iv r.plaintext with
  | none => exact absurd (List.find?_eq_none.1 hfind r hr) (by simp)
  | some r' =>
    obtain ⟨hr', hkey, hiv, hplain⟩ := ofPlaintext_eq_some hfind
    rw [h.apart r' hr' r hr hkey hiv (.inl hplain)]

theorem Consistent.ofCiphertext (h : sealings.Consistent) (hr : r ∈ sealings) :
    sealings.ofCiphertext r.key r.iv r.ciphertext r.tag = some r := by
  cases hfind : sealings.ofCiphertext r.key r.iv r.ciphertext r.tag with
  | none => exact absurd (List.find?_eq_none.1 hfind r hr) (by simp)
  | some r' =>
    obtain ⟨hr', hkey, hiv, hct, -⟩ := ofCiphertext_eq_some hfind
    rw [h.apart r' hr' r hr hkey hiv (.inr hct)]

theorem Consistent.lengths_encrypt (h : sealings.Consistent) (key iv plaintext : Bytes) :
    (sealings.encrypt key iv plaintext).1.length = plaintext.length ∧
      (sealings.encrypt key iv plaintext).2.length = 16 := by
  unfold encrypt
  split
  · next r hfind =>
    obtain ⟨hr, -, -, rfl⟩ := ofPlaintext_eq_some hfind
    exact h.lengths r hr
  · exact ⟨rfl, List.length_replicate⟩

theorem Consistent.decrypt_iff (h : sealings.Consistent) :
    sealings.decrypt key iv ciphertext tag = some plaintext ↔
      sealings.encrypt key iv plaintext = (ciphertext, tag) := by
  constructor
  · intro hopen
    unfold decrypt at hopen
    split at hopen
    · next r hfind =>
      obtain ⟨hr, rfl, rfl, rfl, rfl⟩ := ofCiphertext_eq_some hfind
      cases hopen
      rw [encrypt, h.ofPlaintext hr]
    · split at hopen
      · next hnone =>
        cases hopen
        rw [encrypt, hnone.2, hnone.1]
      · cases hopen
  · intro hseal
    unfold encrypt at hseal
    split at hseal
    · next r hfind =>
      obtain ⟨hr, rfl, rfl, rfl⟩ := ofPlaintext_eq_some hfind
      cases hseal
      rw [decrypt, h.ofCiphertext hr]
    · next hnone =>
      cases hseal
      have hfind : sealings.ofCiphertext key iv plaintext noTag = none := by
        refine List.find?_eq_none.2 fun r hr => ?_
        have htag := h.tags r hr
        simp [htag]
      rw [decrypt, hfind]
      simp [hnone]

end Sealings

/-! ### What is on record -/

namespace OnRecord

/-- Multiples of the generator of secp256k1. -/
def multiple : Nat → Option Bytes
  | 1 => some (ofNumber 65 0x0479be667ef9dcbbac55a06295ce870b07029bfcdb2dce28d959f2815b16f81798483ada7726a3c4655da4fbfc0e1108a8fd17b448a68554199c47d08ffb10d4b8)
  | 2 => some (ofNumber 65 0x04c6047f9441ed7d6d3045406e95c07cd85c778e4b8cef3ca7abac09b95c709ee51ae168fea63dc339a3c58419466ceaeef7f632653266d0e1236431a950cfe52a)
  | 3 => some (ofNumber 65 0x04f9308a019258c31049344f85f89d5229b531c845836f99b08601f113bce036f9388f7b0f632de8140fe337e62a37f3566500a99934c2231b6cb9fd7584b8e672)
  | 4 => some (ofNumber 65 0x04e493dbf1c10d80f3581e4904930b1404cc6c13900ee0758474fa94abe8c4cd1351ed993ea0d455b75642e2098ea51448d967ae33bfbdfe40cfe97bdc47739922)
  | 6 => some (ofNumber 65 0x04fff97bd5755eeea420453a14355235d382f6472f8568a18b2f057a1460297556ae12777aacfbb620f3be96017f45c560de80f0f6518fe4a03c870c36b075f297)
  | 9 => some (ofNumber 65 0x04acd484e2f0c7f65309ad178a9f559abde09796974c57e714c35f110dfc27ccbecc338921b0a7d9fd64380971763b61e9add888a4375f8e0f05cc262ac64f9c37)
  | _ => none

/-- The private keys on record. -/
def scalar (a : Bytes) : Option Nat :=
  if a = ofNumber 32 1 then some 1
  else if a = ofNumber 32 2 then some 2
  else if a = ofNumber 32 3 then some 3
  else none

def logarithm (A : Bytes) : Option Nat :=
  if multiple 1 = some A then some 1
  else if multiple 2 = some A then some 2
  else if multiple 3 = some A then some 3
  else none

def shared (a B : Bytes) : Option Bytes :=
  (scalar a).bind fun n => (logarithm B).bind fun m => multiple (n * m)

def iv : Bytes := ofNumber 12 0x000102030405060708090a0b

def aesKey : Bytes := ofNumber 32 0x202122232425262728292a2b2c2d2e2f303132333435363738393a3b3c3d3e3f

/-- The keys of the exchanges of 1 with 2 and with 3. -/
def wrapping2 : Bytes := ofNumber 32 0xed31669ea9cab602dc66a7689732f3e89dbae43a227f8b0888c1eca06f1382e5

def wrapping3 : Bytes := ofNumber 32 0x9bf13782f824cae4656589088470abf3988aa4f9e067ed2ef0e4e4bc7157d4a2

/-- The digest of the private key 2 in digits. -/
def digest2 : Bytes := ofNumber 32 0x68e4d75d23e31bd23f43266f769567b2588d9f3d3010fa7cacae7efd6f5ce0ad

def seed : Bytes := ofNumber 32 5

def edwards : Bytes := ofNumber 32 0xfde4fba030ad002f7c2f7d4c331f49d13fb0ec747eceebec634f1ff4cbca9def

def montgomerySecret : Bytes := ofNumber 32 0x68400007754114f090b6017737fff04625e130e81e8911acb693c2de09c9d44a

def montgomery : Bytes := ofNumber 32 0x8d1233de8ae25c33599a76f7e5741becad54225cf769ed5aa35612a8b7815c7b

def ephemeral : Bytes := ofNumber 32 7

def ephemeralPublic : Bytes := ofNumber 32 0xf6031bd7596323fa540041bd3a635133e72878493e7620048875887bdc8b9907

def sharedX25519 : Bytes := ofNumber 32 0xc2f54d01f5970e90b7d1d8c4a28e996a6e769828cc0b3429d8933b879d5e7e3d

def wrappingX25519 : Bytes := ofNumber 32 0xed4ec35130100804012a33bfa60bce0f2ca986d66938142af7aa84edc29e8944

def sealings : Sealings := [
  ⟨wrapping2, iv, aesKey,
    ofNumber 32 0x1c627f565829e9be18a9dace0c7ac9c64998623d3c178d7c6ca8d058c8494cdd,
    ofNumber 16 0x2803017b8e2bbea3762e4f219a922eef⟩,
  ⟨wrapping3, iv, aesKey,
    ofNumber 32 0x5c68f6f6a531afe1d86240f98a23dd8e5d2e29a7df020776247f26190d67c117,
    ofNumber 16 0x935dde0cfaa2836880e71842d2c2a6aa⟩,
  ⟨wrappingX25519, iv, aesKey,
    ofNumber 32 0xb6fc517d2a8f59fbddb3a806df2529af3df5adbb0830877695c8b04c73e40597,
    ofNumber 16 0xc7a8428971bdcc7beb23d01a5d72edb9⟩,
  ⟨aesKey, iv, ascii "brief",
    ofNumber 5 0x3e2034c22c,
    ofNumber 16 0xc39e66d9f82fa736fa2652aac986722d⟩,
  ⟨aesKey, iv, ascii "done",
    ofNumber 4 0x383d33c2,
    ofNumber 16 0x7902cc92e713dcb592de68027405f46d⟩,
  ⟨digest2, iv, ascii "token",
    ofNumber 5 0x6c86d4b5aa,
    ofNumber 16 0xa7a3b776c9023044f557c50f6f0a6382⟩]

def hkdf (ikm salt info : Bytes) (length : Nat) : Bytes :=
  if length = 32 ∧ salt = [] then
    if some ikm = (multiple 2).map (fun P => (P.drop 1).take 32) ∧ info = eciesHkdfInfo then
      wrapping2
    else if some ikm = (multiple 3).map (fun P => (P.drop 1).take 32) ∧ info = eciesHkdfInfo then
      wrapping3
    else if ikm = sharedX25519 ∧ info = eciesX25519HkdfInfo then wrappingX25519
    else List.replicate length 0
  else List.replicate length 0

def x25519PublicKey (a : Bytes) : Bytes :=
  if a = montgomerySecret then montgomery
  else if a = ephemeral then ephemeralPublic
  else a

def x25519Secret (A : Bytes) : Bytes :=
  if A = montgomery then montgomerySecret
  else if A = ephemeralPublic then ephemeral
  else A

def x25519Shared (a b : Bytes) : Bytes :=
  if a = montgomerySecret ∧ b = ephemeral ∨ a = ephemeral ∧ b = montgomerySecret then sharedX25519
  else List.replicate 32 0

/-- The real library on a few inputs. -/
def library : Library where
  gcmEncrypt := sealings.encrypt
  gcmDecrypt := sealings.decrypt
  hkdf := hkdf
  sha256 text := if text = toHex (ofNumber 32 2) then digest2 else List.replicate 32 0
  publicKey a := (scalar a).bind multiple
  computeSharedSecret := shared
  computeSecret a B := (shared a B).map fun P => (P.drop 1).take 32
  ed25519PublicKey s := if s = seed then some edwards else none
  toMontgomery A := if A = edwards then some montgomery else none
  toMontgomerySecret s := if s = seed then some montgomerySecret else none
  x25519PublicKey := x25519PublicKey
  diffieHellman a B := some (x25519Shared (x25519Secret (x25519PublicKey a)) (x25519Secret B))

theorem consistent : sealings.Consistent where
  lengths := by decide +kernel
  tags := by decide +kernel
  apart := by decide +kernel

theorem scalar_cases {a A : Bytes} (h : (scalar a).bind multiple = some A) :
    ∃ n, (n = 1 ∨ n = 2 ∨ n = 3) ∧ scalar a = some n ∧ multiple n = some A ∧
      logarithm A = some n := by
  obtain ⟨n, hn, hA⟩ := Option.bind_eq_some_iff.1 h
  have hcases : n = 1 ∨ n = 2 ∨ n = 3 := by
    unfold scalar at hn
    grind
  refine ⟨n, hcases, hn, hA, ?_⟩
  have hlog : ∀ m, m = 1 ∨ m = 2 ∨ m = 3 → (multiple m).bind logarithm = some m := by
    rintro m (rfl | rfl | rfl) <;> decide +kernel
  simpa [hA] using hlog n hcases

theorem multiple_shape {n m : Nat} (hn : n = 1 ∨ n = 2 ∨ n = 3) (hm : m = 1 ∨ m = 2 ∨ m = 3) :
    ∃ P, multiple (n * m) = some P ∧ P.length = 65 ∧ P.head? = some 4 := by
  rcases hn with rfl | rfl | rfl <;> rcases hm with rfl | rfl | rfl <;>
    exact ⟨_, rfl, by decide +kernel, by decide +kernel⟩

theorem lawful : library.Lawful where
  gcm_lengths := fun key iv plaintext _ _ => consistent.lengths_encrypt key iv plaintext
  gcm_iff := fun _ _ _ _ _ _ _ => consistent.decrypt_iff
  hkdf_length := by
    intro ikm salt info
    simp only [library, hkdf, wrapping2, wrapping3, wrappingX25519]
    split_ifs <;> simp
  sha256_length := by
    intro text
    simp only [library, digest2]
    split <;> simp
  publicKey_shape := by
    intro a A hA
    obtain ⟨n, hn, -, hmul, -⟩ := scalar_cases hA
    obtain ⟨P, hP, hshape⟩ := multiple_shape hn (.inl rfl)
    rw [Nat.mul_one, hmul] at hP
    cases hP
    exact hshape
  ecdh := by
    intro a A b B _ _ hA hB
    obtain ⟨n, hn, hscalar, -, hlog⟩ := scalar_cases hA
    obtain ⟨m, hm, hscalar', -, hlog'⟩ := scalar_cases hB
    obtain ⟨P, hP, hlen, hhead⟩ := multiple_shape hn hm
    have hshared : shared a B = some P := by simp [shared, hscalar, hlog', hP]
    have hshared' : shared b A = some P := by
      simp [shared, hscalar', hlog, Nat.mul_comm m n, hP]
    exact ⟨P, hlen, hhead, hshared, hshared', by simp [library, hshared],
      by simp [library, hshared']⟩
  computeSecret_nil := by
    intro B
    have hnil : scalar [] = none := by decide +kernel
    simp [library, shared, hnil]
  ed25519_shape := by
    intro s A hA
    simp only [library] at hA
    split at hA
    · next hs =>
      cases hA
      rw [hs]
      exact ⟨length_ofNumber _ _, length_ofNumber _ _⟩
    · cases hA
  montgomery := by
    intro s A hA
    simp only [library] at hA ⊢
    split at hA
    · next hs =>
      cases hA
      exact ⟨montgomerySecret, length_ofNumber _ _, if_pos hs, by simp [x25519PublicKey]⟩
    · cases hA
  x25519_length := by
    intro a ha
    simp only [library, x25519PublicKey]
    split_ifs
    · exact length_ofNumber _ _
    · exact length_ofNumber _ _
    · exact ha
  x25519_shared := by
    intro a b _ _
    refine ⟨_, rfl, ?_⟩
    simp only [library, x25519Shared]
    grind

end OnRecord

/-- The implementations; the workers import the backend's. -/
inductive Party
  | sdk
  | web
  | backend
  | worker
  | mcp
  deriving DecidableEq, Repr

namespace Party

variable (lib : Library)

def aesEncrypt (iv plaintext key : Bytes) : Party → Result
  | .sdk => Sdk.aesEncrypt lib iv plaintext key
  | .web => Web.aesEncrypt lib iv plaintext key
  | .backend | .worker => Backend.aesEncrypt lib iv plaintext key
  | .mcp => Mcp.aesEncrypt lib iv plaintext key

def aesDecrypt (blob key : Bytes) : Party → Result
  | .sdk => Sdk.aesDecrypt lib blob key
  | .web => Web.aesDecrypt lib blob key
  | .backend | .worker => Backend.aesDecrypt lib blob key
  | .mcp => Mcp.aesDecrypt lib blob key

def eciesEncrypt (ephemeral iv data : Bytes) (pubHex : Text) : Party → Result
  | .sdk => Sdk.eciesEncrypt lib ephemeral iv data pubHex
  | .web => Web.eciesEncrypt lib ephemeral iv data pubHex
  | .backend | .worker => Backend.eciesEncrypt lib ephemeral iv data pubHex
  | .mcp => Mcp.eciesEncrypt lib ephemeral iv data pubHex

def eciesDecrypt (blob : Bytes) (privHex : Text) : Party → Result
  | .sdk => Sdk.eciesDecrypt lib blob privHex
  | .web => Web.eciesDecrypt lib blob privHex
  | .backend => Backend.eciesDecrypt lib blob privHex
  | .worker => Worker.eciesDecryptK1 lib blob privHex
  | .mcp => Mcp.eciesDecrypt lib blob privHex

/-- Whether it opens the sealed form of nothing. -/
def opensEmpty : Party → Bool
  | .sdk | .web => true
  | _ => false

/-- Whether it reads a private key written with `0x`. -/
def readsPrefixed : Party → Bool
  | .backend => false
  | _ => true

end Party

variable {lib : Library} {iv key plaintext blob : Bytes}

@[simp] theorem orThrown_eq_ok {α : Type} {o : Option α} {v : α} :
    orThrown o = .ok v ↔ o = some v := orElse_eq_ok

/-! ## AES blobs -/

theorem length_nodeSeal (hlib : lib.Lawful) (hkey : key.length = 32) (hiv : iv.length = 12)
    (plaintext : Bytes) : (nodeSeal lib iv plaintext key).length = 28 + plaintext.length := by
  obtain ⟨hct, htag⟩ := hlib.gcm_lengths key iv plaintext hkey hiv
  simp only [nodeSeal, List.length_append, hct, htag, hiv]

theorem webSeal_eq (hlib : lib.Lawful) (hkey : key.length = 32) (hiv : iv.length = 12)
    (plaintext : Bytes) : webSeal lib iv plaintext key = nodeSeal lib iv plaintext key := by
  obtain ⟨hct, htag⟩ := hlib.gcm_lengths key iv plaintext hkey hiv
  have hlen : (lib.subtleEncrypt key iv plaintext).length - tagLength =
      (lib.gcmEncrypt key iv plaintext).1.length := by
    simp only [Library.subtleEncrypt, List.length_append, htag, tagLength]
    omega
  simp only [webSeal, hlen]
  rw [Library.subtleEncrypt, List.take_left' rfl, List.drop_left' rfl, nodeSeal]

theorem webOpen_eq (h : 28 ≤ blob.length) (key : Bytes) :
    webOpen lib blob key = nodeOpen lib blob key := by
  have htag : ((blob.drop ivLength).take tagLength).length = 16 := by
    simp only [List.length_take, List.length_drop, ivLength, tagLength]
    omega
  have hlen : (blob.drop (ivLength + tagLength) ++ (blob.drop ivLength).take tagLength).length -
      tagLength = (blob.drop (ivLength + tagLength)).length := by
    rw [List.length_append, htag, tagLength]
    omega
  simp only [webOpen, nodeOpen, Library.subtleDecrypt, hlen]
  rw [if_neg (by rw [List.length_append, htag, tagLength]; omega), List.take_left' rfl,
    List.drop_left' rfl]

/-- Exactly what was sealed opens. -/
theorem nodeOpen_iff (hlib : lib.Lawful) (hkey : key.length = 32) (hblob : 28 ≤ blob.length) :
    nodeOpen lib blob key = some plaintext ↔
      ∃ iv : Bytes, iv.length = 12 ∧ nodeSeal lib iv plaintext key = blob := by
  simp only [nodeOpen, ivLength, tagLength]
  rw [hlib.gcm_iff _ _ _ _ _ hkey (by rw [List.length_take]; omega)]
  constructor
  · intro h
    refine ⟨blob.take 12, by rw [List.length_take]; omega, ?_⟩
    rw [nodeSeal, h, List.append_assoc, Nat.add_comm, ← List.drop_drop, List.drop_drop,
      Nat.add_comm, ← List.drop_drop, List.take_append_drop, List.take_append_drop]
  · rintro ⟨iv, hiv, rfl⟩
    obtain ⟨-, htag⟩ := hlib.gcm_lengths key iv plaintext hkey hiv
    have htake : (nodeSeal lib iv plaintext key).take 12 = iv := by
      rw [nodeSeal, List.append_assoc, List.take_left' hiv]
    have hdrop : (nodeSeal lib iv plaintext key).drop 12 =
        (lib.gcmEncrypt key iv plaintext).2 ++ (lib.gcmEncrypt key iv plaintext).1 := by
      rw [nodeSeal, List.append_assoc, List.drop_left' hiv]
    rw [htake, ← List.drop_drop, hdrop, List.take_left' htag, List.drop_left' htag]

/-- The least length of a blob that a party opens. -/
def Party.aesMin (p : Party) : Nat := if p.opensEmpty then 28 else 29

theorem aesDecrypt_iff (p : Party) (blob key plaintext : Bytes) :
    p.aesDecrypt lib blob key = .ok plaintext ↔
      key.length = 32 ∧ p.aesMin ≤ blob.length ∧ nodeOpen lib blob key = some plaintext := by
  have hweb : 28 ≤ blob.length ∧ webOpen lib blob key = some plaintext ↔
      28 ≤ blob.length ∧ nodeOpen lib blob key = some plaintext :=
    and_congr_right fun h => by rw [webOpen_eq h]
  cases p <;> simp only [Party.aesDecrypt, Sdk.aesDecrypt, Web.aesDecrypt, Backend.aesDecrypt,
    Mcp.aesDecrypt, Sdk.checkKey, Web.checkKey, Backend.checkKey, seq_eq_ok, require_eq_ok,
    orElse_eq_ok, orThrown_eq_ok, exists_const] <;>
    simp only [Party.aesMin, Party.opensEmpty, keyLength, ivLength, tagLength, Sdk.aesMinBlob,
      Backend.aesMinBlob, Nat.reduceAdd, if_true, Bool.false_eq_true, if_false, hweb]

theorem aesEncrypt_eq (hlib : lib.Lawful) (hkey : key.length = 32) (hiv : iv.length = 12)
    (p : Party) (plaintext : Bytes) :
    p.aesEncrypt lib iv plaintext key = .ok (nodeSeal lib iv plaintext key) := by
  cases p <;> simp [Party.aesEncrypt, Sdk.aesEncrypt, Web.aesEncrypt, Backend.aesEncrypt,
    Mcp.aesEncrypt, Sdk.checkKey, Web.checkKey, Backend.checkKey, require, keyLength, hkey,
    webSeal_eq hlib hkey hiv]

theorem opens_iff (hlib : lib.Lawful) (p : Party) (blob key plaintext : Bytes) :
    p.aesDecrypt lib blob key = .ok plaintext ↔
      key.length = 32 ∧ (plaintext ≠ [] ∨ p.opensEmpty = true) ∧
        ∃ iv : Bytes, iv.length = 12 ∧ nodeSeal lib iv plaintext key = blob := by
  rw [aesDecrypt_iff]
  refine and_congr_right fun hkey => ?_
  have hmin : 28 ≤ p.aesMin := by
    unfold Party.aesMin
    split <;> omega
  constructor
  · rintro ⟨hlen, hopen⟩
    obtain ⟨iv, hiv, heq⟩ := (nodeOpen_iff hlib hkey (by omega)).1 hopen
    refine ⟨?_, iv, hiv, heq⟩
    by_contra hne
    simp only [not_or, not_not, Bool.not_eq_true] at hne
    obtain ⟨rfl, hempty⟩ := hne
    rw [← heq, length_nodeSeal hlib hkey hiv, Party.aesMin, hempty] at hlen
    simp at hlen
  · rintro ⟨hne, iv, hiv, rfl⟩
    have hlen := length_nodeSeal hlib hkey hiv plaintext
    refine ⟨?_, (nodeOpen_iff hlib hkey (by omega)).2 ⟨iv, hiv, rfl⟩⟩
    rw [hlen, Party.aesMin]
    split
    · omega
    · next hempty =>
      have hpos := List.length_pos_iff.2 (hne.resolve_right hempty)
      omega

/-- A blob opens exactly if it was sealed with the key, unless it holds nothing and the party is one
of those that refuse the shortest blobs. -/
theorem aes_opens_iff (hlib : lib.Lawful) (p : Party) (blob key plaintext : Bytes) :
    p.aesDecrypt lib blob key = .ok plaintext ↔
      key.length = 32 ∧ (plaintext ≠ [] ∨ p.opensEmpty = true) ∧
        ∃ iv : Bytes, iv.length = 12 ∧ nodeSeal lib iv plaintext key = blob :=
  opens_iff hlib p blob key plaintext

/-- The backend opens what was sealed under the task's key. -/
theorem aes_opens_iff_onRecord :
    Party.backend.aesDecrypt OnRecord.library
        (nodeSeal OnRecord.library OnRecord.iv (ascii "brief") OnRecord.aesKey) OnRecord.aesKey =
      .ok (ascii "brief") :=
  (aes_opens_iff OnRecord.lawful .backend _ _ _).2
    ⟨length_ofNumber _ _, .inl (by decide), OnRecord.iv, length_ofNumber _ _, rfl⟩

end SealedBlobs
