/-
# Addresses and their networks

An address is the base58 text of a byte, which tells the network and the kind of the script, and
of a hash. Where an output is made, the network is told from the first character: a D stands for
the main network, anything else for the test network. For the addresses of public keys both agree
(`addressOut_pubkey`), and for the script addresses of the test network. But the script addresses
of the main network begin with a 9 or an A, as `dogecoin_chainparams_main` says. They are taken for
addresses of the test network, whose bytes they do not have, and no output is made
(`addressOut_script_main`).
-/

import RadioDoge.Libdogecoin.Base58

namespace RadioDoge.Libdogecoin

/-! ## The functions of base58 -/

section Functions

variable (dblhash : Bytes → Vector UInt8 32)

/-- `dogecoin_p2pkh_addr_from_hash160`: the address, if its buffer of `len` bytes has room. -/
def p2pkhAddrFromHash160 (hashin : Vector UInt8 20) (chain : ChainParams) (len : Nat) :
    Option Bytes :=
  base58EncodeCheck dblhash (chain.b58prefixPubkeyAddress :: hashin.toList) len

/-- `dogecoin_p2sh_addr_from_hash160`. -/
def p2shAddrFromHash160 (hashin : Vector UInt8 20) (chain : ChainParams) (len : Nat) :
    Option Bytes :=
  base58EncodeCheck dblhash (chain.b58prefixScriptAddress :: hashin.toList) len

/-- The functions with those of base58. `dogecoin_tx_add_address_out` decodes into a buffer that is
twice as long as the text. -/
def KeyFunctions.withBase58 (functions : KeyFunctions) : KeyFunctions :=
  { functions with
    base58DecodeCheck := fun address =>
      Libdogecoin.base58DecodeCheck dblhash address (2 * address.length) }

end Functions

/-! ## The first character -/

/-- The bytes of an address as a number. -/
theorem number_address (byte : UInt8) {rest : Bytes} (hrest : rest.length = 24) :
    byte.toNat * 256 ^ 24 ≤ Radix.number 256 (octets (byte :: rest)) ∧
      Radix.number 256 (octets (byte :: rest)) < (byte.toNat + 1) * 256 ^ 24 := by
  have hoctets : octets (byte :: rest) = byte.toNat :: octets rest := rfl
  have hbelow := Radix.number_lt (b := 256) (by decide) (digits_octets rest)
  rw [length_octets, hrest] at hbelow
  rw [hoctets, Radix.number_cons, length_octets, hrest]
  omega

/-- The text of an address between two multiples of a power of 58. -/
theorem base58Text_eq_cons {byte : UInt8} {rest : Bytes} (hbyte : byte ≠ 0) {d k : Nat}
    (hpos : 0 < d) (hd : d < 58)
    (hlow : d * 58 ^ k ≤ Radix.number 256 (octets (byte :: rest)))
    (hhigh : Radix.number 256 (octets (byte :: rest)) < (d + 1) * 58 ^ k) :
    ∃ chars, base58Text (byte :: rest) = b58digit d :: chars ∧ chars.length = k := by
  have hzeros : Radix.zeros (octets (byte :: rest)) = 0 := by
    rw [← length_takeWhile_zero, List.takeWhile_cons_of_neg (by simpa using hbyte)]
    rfl
  rcases Radix.exists_write_eq_cons (by decide) hpos hd hlow hhigh with
    ⟨digits, hdigits, hlength⟩
  refine ⟨digits.map b58digit, ?_, by rw [List.length_map, hlength]⟩
  rw [base58Text, Radix.convert, hzeros, hdigits, List.map_cons]

section Bytes

variable {rest : Bytes} (hrest : rest.length = 24)
include hrest

/-- A public key of the main network: "30, starts with D". -/
theorem base58Text_pubkey_main :
    ∃ chars, base58Text (0x1e :: rest) = 68 :: chars ∧ chars.length = 33 := by
  rcases number_address 0x1e hrest with ⟨hlow, hhigh⟩
  exact base58Text_eq_cons (d := 12) (by decide) (by decide) (by decide)
    (le_trans (by decide) hlow) (hhigh.trans_le (by decide))

/-- A public key of the test network: "113 starts with n". -/
theorem base58Text_pubkey_test :
    ∃ chars, base58Text (0x71 :: rest) = 110 :: chars ∧ chars.length = 33 := by
  rcases number_address 0x71 hrest with ⟨hlow, hhigh⟩
  exact base58Text_eq_cons (d := 45) (by decide) (by decide) (by decide)
    (le_trans (by decide) hlow) (hhigh.trans_le (by decide))

/-- A script of the main network: "22, starts with 9 or A". -/
theorem base58Text_script_main :
    ∃ first chars, base58Text (0x16 :: rest) = first :: chars ∧ (first = 57 ∨ first = 65) ∧
      chars.length = 33 := by
  rcases number_address 0x16 hrest with ⟨hlow, hhigh⟩
  rcases Nat.lt_or_ge (Radix.number 256 (octets (0x16 :: rest))) (9 * 58 ^ 33) with hnine | hten
  · rcases base58Text_eq_cons (d := 8) (by decide) (by decide) (by decide)
      (le_trans (by decide) hlow) hnine with ⟨chars, htext, hlength⟩
    exact ⟨_, chars, htext, .inl rfl, hlength⟩
  · rcases base58Text_eq_cons (d := 9) (by decide) (by decide) (by decide) hten
      (hhigh.trans_le (by decide)) with ⟨chars, htext, hlength⟩
    exact ⟨_, chars, htext, .inr rfl, hlength⟩

/-- A script of the test network: "196 starts with 2". -/
theorem base58Text_script_test :
    ∃ chars, base58Text (0xc4 :: rest) = 50 :: chars ∧ chars.length = 34 := by
  rcases number_address 0xc4 hrest with ⟨hlow, hhigh⟩
  exact base58Text_eq_cons (d := 1) (by decide) (by decide) (by decide)
    (le_trans (by decide) hlow) (hhigh.trans_le (by decide))

end Bytes

/-! ## Outputs -/

section Outputs

variable {dblhash : Bytes → Vector UInt8 32} (functions : KeyFunctions) {hashin : Vector UInt8 20}
  {address : Bytes} {len : Nat} (amount : UInt64)

/-- What is encoded is the text of the byte, the hash and the checksum. -/
theorem encodeCheck_eq_some {byte : UInt8}
    (haddress : base58EncodeCheck dblhash (byte :: hashin.toList) len = some address) :
    ∃ rest : Bytes, rest.length = 24 ∧ rest.take 20 = hashin.toList ∧
      byte :: rest = byte :: hashin.toList ++ checksum dblhash (byte :: hashin.toList) ∧
        address = base58Text (byte :: rest) := by
  refine ⟨hashin.toList ++ checksum dblhash (byte :: hashin.toList), ?_, ?_, rfl, ?_⟩
  · rw [List.length_append, Vector.length_toList, length_checksum]
  · exact List.take_left' (Vector.length_toList)
  · exact ((base58EncodeCheck_eq_some_iff dblhash).mp haddress).2.2

/-- An address is decoded to its byte and its hash; the network is told from its first
character. -/
theorem addressOut_encoded (chain : ChainParams) {byte : UInt8} (hbyte : byte ≠ 0)
    (htext : ∀ rest : Bytes, rest.length = 24 → ∃ first chars,
      base58Text (byte :: rest) = first :: chars ∧ chainOf [first] = chain ∧
        (chars.length = 33 ∨ chars.length = 34))
    (haddress : base58EncodeCheck dblhash (byte :: hashin.toList) len = some address) :
    addressOut (functions.withBase58 dblhash) amount address =
      if byte = chain.b58prefixPubkeyAddress then
        some ⟨amount.toInt64, scriptBuildP2pkh hashin.toList⟩
      else if byte = chain.b58prefixScriptAddress then
        some ⟨amount.toInt64, scriptBuildP2sh hashin.toList⟩
      else none := by
  rcases encodeCheck_eq_some haddress with ⟨rest, hrest, hhash, hall, haddr⟩
  rcases htext rest hrest with ⟨first, chars, hchars, hnetwork, hlength⟩
  have hfirst : address = first :: chars := haddr.trans hchars
  have hcount : address.length = chars.length + 1 := by rw [hfirst, List.length_cons]
  have hchain : chainOf address = chain := by rw [hfirst, ← hnetwork]; rfl
  have hfits : address.length ≤ 2 * address.length := Nat.le_mul_of_pos_left _ (by decide)
  have hdecoded := base58DecodeCheck_encodeCheck dblhash haddress
    ⟨byte, List.mem_cons_self, hbyte⟩ (by omega) (by omega) hfits
  rw [← hall] at hdecoded
  have hhash160 : hash160Of rest = hashin.toList := by
    rw [hash160Of, List.take_append_of_le_length (by omega), hhash]
  rw [addressOut]
  simp only [KeyFunctions.withBase58, hdecoded, hhash160, hchain]

/-- **Public keys.** An output for the address of a public key, of either network, pays to its
hash. -/
theorem addressOut_pubkey {chain : ChainParams}
    (hchain : chain = chainparamsMain ∨ chain = chainparamsTest)
    (haddress : p2pkhAddrFromHash160 dblhash hashin chain len = some address) :
    addressOut (functions.withBase58 dblhash) amount address =
      some ⟨amount.toInt64, scriptBuildP2pkh hashin.toList⟩ := by
  rcases hchain with rfl | rfl
  · refine addressOut_encoded functions amount chainparamsMain (by decide) ?_ haddress
    intro rest hrest
    rcases base58Text_pubkey_main hrest with ⟨chars, hchars, hlength⟩
    exact ⟨68, chars, hchars, rfl, .inl hlength⟩
  · refine addressOut_encoded functions amount chainparamsTest (by decide) ?_ haddress
    intro rest hrest
    rcases base58Text_pubkey_test hrest with ⟨chars, hchars, hlength⟩
    exact ⟨110, chars, hchars, rfl, .inl hlength⟩

/-- **Scripts of the test network.** -/
theorem addressOut_script_test
    (haddress : p2shAddrFromHash160 dblhash hashin chainparamsTest len = some address) :
    addressOut (functions.withBase58 dblhash) amount address =
      some ⟨amount.toInt64, scriptBuildP2sh hashin.toList⟩ := by
  refine addressOut_encoded functions amount chainparamsTest (by decide) ?_ haddress
  intro rest hrest
  rcases base58Text_script_test hrest with ⟨chars, hchars, hlength⟩
  exact ⟨50, chars, hchars, rfl, .inr hlength⟩

/-- **Scripts of the main network.** No output is made for their addresses. -/
theorem addressOut_script_main
    (haddress : p2shAddrFromHash160 dblhash hashin chainparamsMain len = some address) :
    addressOut (functions.withBase58 dblhash) amount address = none := by
  refine addressOut_encoded functions amount chainparamsTest (by decide) ?_ haddress
  intro rest hrest
  rcases base58Text_script_main hrest with ⟨first, chars, hchars, hnine, hlength⟩
  have hnetwork : chainOf [first] = chainparamsTest := by
    rcases hnine with rfl | rfl
    · rfl
    · rfl
  exact ⟨first, chars, hchars, hnetwork, .inl hlength⟩

end Outputs

end RadioDoge.Libdogecoin
