/-
# Transactions as bytes

A transaction is written as its version, its inputs, its outputs and its lock time; lists and
scripts have their length in front. Raw transactions travel as the hexadecimal text of these
bytes, from serdog through the radio to the hub.

Reading gives the transaction back, whatever stands behind it. The reader takes more than the
writer writes: a length may be longer than it needs to be, and where fewer than 32 bytes are left
the hash of an input is taken to be zero. What it accepts is read again as the same transaction
when it has been written anew.
-/

import RadioDoge.Arduino
import RadioDoge.Lib.Wire

namespace RadioDoge.Libdogecoin

open LittleEndian Wire

/-! ## The structures -/

/-- `dogecoin_tx_in`, with its `dogecoin_tx_outpoint`. -/
structure TxIn where
  prevoutHash : Vector UInt8 32
  prevoutN : UInt32
  scriptSig : Bytes
  sequence : UInt32
  deriving DecidableEq, Repr

/-- `dogecoin_tx_out`. -/
structure TxOut where
  value : Int64
  scriptPubkey : Bytes
  deriving DecidableEq, Repr

/-- `dogecoin_tx`. -/
structure Tx where
  version : Int32
  vin : List TxIn
  vout : List TxOut
  locktime : UInt32
  deriving DecidableEq, Repr

/-- `dogecoin_tx_new`. -/
def Tx.new : Tx := ⟨1, [], [], 0⟩

/-! ## Writing -/

/-- `ser_u32`. -/
def serU32 (v : UInt32) : Bytes := toBytes 4 v.toNat

/-- `ser_s32`. -/
def serS32 (v : Int32) : Bytes := serU32 v.toUInt32

/-- `ser_s64`. -/
def serS64 (v : Int64) : Bytes := toBytes 8 v.toUInt64.toNat

/-- `ser_varlen`. -/
def serVarlen (vlen : UInt32) : Bytes :=
  if vlen < 253 then toBytes 1 vlen.toNat
  else if vlen < 0x10000 then 253 :: toBytes 2 vlen.toNat
  else 254 :: toBytes 4 vlen.toNat

/-- `ser_varstr`. The length becomes a number of 32 bits. -/
def serVarstr (s : Bytes) : Bytes :=
  if s.length = 0 then serVarlen 0 else serVarlen (UInt32.ofNat s.length) ++ s

/-- `dogecoin_tx_in_serialize`. -/
def TxIn.serialize (txIn : TxIn) : Bytes :=
  txIn.prevoutHash.toList ++ (serU32 txIn.prevoutN ++ (serVarstr txIn.scriptSig ++
    serU32 txIn.sequence))

/-- `dogecoin_tx_out_serialize`. -/
def TxOut.serialize (txOut : TxOut) : Bytes := serS64 txOut.value ++ serVarstr txOut.scriptPubkey

/-- `dogecoin_tx_serialize`. -/
def Tx.serialize (tx : Tx) : Bytes :=
  serS32 tx.version ++ (serVarlen (UInt32.ofNat tx.vin.length) ++ (tx.vin.flatMap TxIn.serialize ++
    (serVarlen (UInt32.ofNat tx.vout.length) ++ (tx.vout.flatMap TxOut.serialize ++
      serU32 tx.locktime))))

/-! ## Reading -/

/-- `deser_u32`. -/
def deserU32 : Reader UInt32 := fun buf =>
  (takeNumber 4 buf).map fun read => (UInt32.ofNat read.1, read.2)

/-- `deser_s32`. -/
def deserS32 : Reader Int32 := fun buf =>
  (deserU32 buf).map fun read => (read.1.toInt32, read.2)

/-- `deser_s64`, by way of `deser_u64`. -/
def deserS64 : Reader Int64 := fun buf =>
  (takeNumber 8 buf).map fun read => ((UInt64.ofNat read.1).toInt64, read.2)

/-- `deser_u256` into a hash that is zero, whose result is not looked at: where too few bytes are
left, the hash stays zero and nothing is taken. -/
def deserU256 (buf : Bytes) : Vector UInt8 32 × Bytes :=
  match takeBytes 32 buf with
  | none => (Vector.replicate 32 0, buf)
  | some (hash, buf) => (memcpy (Vector.replicate 32 0) 0 hash, buf)

/-- `deser_varlen`. A length of 64 bits is cut off. -/
def deserVarlen : Reader UInt32
  | [] => none
  | c :: buf =>
      if c = 253 then (takeNumber 2 buf).map fun read => (UInt32.ofNat read.1, read.2)
      else if c = 254 then (takeNumber 4 buf).map fun read => (UInt32.ofNat read.1, read.2)
      else if c = 255 then (takeNumber 8 buf).map fun read => (UInt32.ofNat read.1, read.2)
      else some (c.toUInt32, buf)

/-- `deser_varstr`. -/
def deserVarstr : Reader Bytes := fun buf => do
  let (len, buf) ← deserVarlen buf
  takeBytes len.toNat buf

/-- `dogecoin_tx_in_deserialize`. -/
def deserTxIn : Reader TxIn := fun buf => do
  let (prevoutHash, buf) := deserU256 buf
  let (prevoutN, buf) ← deserU32 buf
  let (scriptSig, buf) ← deserVarstr buf
  let (sequence, buf) ← deserU32 buf
  some (⟨prevoutHash, prevoutN, scriptSig, sequence⟩, buf)

/-- `dogecoin_tx_out_deserialize`. -/
def deserTxOut : Reader TxOut := fun buf => do
  let (value, buf) ← deserS64 buf
  let (scriptPubkey, buf) ← deserVarstr buf
  some (⟨value, scriptPubkey⟩, buf)

/-- `dogecoin_tx_deserialize`. -/
def deserTx : Reader Tx := fun buf => do
  let (version, buf) ← deserS32 buf
  let (inputs, buf) ← deserVarlen buf
  let (vin, buf) ← readMany deserTxIn inputs.toNat buf
  let (outputs, buf) ← deserVarlen buf
  let (vout, buf) ← readMany deserTxOut outputs.toNat buf
  let (locktime, buf) ← deserU32 buf
  some (⟨version, vin, vout, locktime⟩, buf)

/-! ## The text -/

/-- `TO_UINT8_HEX_BUF_LEN`. -/
abbrev toUint8HexBufLen : Nat := 2048

/-- A digit of `utils_uint8_to_hex`. -/
def hexDigit (nibble : UInt8) : UInt8 := if nibble < 10 then 48 + nibble else 87 + nibble

/-- The hexadecimal text of bytes. -/
def hexText (bin : Bytes) : Bytes :=
  bin.flatMap fun (byte : UInt8) => [hexDigit (byte >>> 4 &&& 15), hexDigit (byte &&& 15)]

/-- `utils_uint8_to_hex`. The text has to fit the buffer with its NUL. -/
def utilsUint8ToHex (bin : Bytes) : Option Bytes :=
  if bin.length > toUint8HexBufLen / 2 - 1 then none else some (hexText bin)

/-- The value of a digit in `utils_hex_to_bin`. Another character counts nothing. -/
def hexValue (c : UInt8) : UInt8 :=
  if 48 ≤ c ∧ c ≤ 57 then c - 48
  else if 97 ≤ c ∧ c ≤ 102 then 10 + c - 97
  else if 65 ≤ c ∧ c ≤ 70 then 10 + c - 65
  else 0

/-- `utils_hex_to_bin`. A single character at the end is left out. -/
def utilsHexToBin : Bytes → Bytes
  | high :: low :: rest => (hexValue high <<< 4 ||| hexValue low) :: utilsHexToBin rest
  | _ => []

/-! ## Numbers -/

theorem deserU32_serU32 (v : UInt32) : Undoes deserU32 serU32 v := by
  intro rest
  have hfits : v.toNat < 256 ^ 4 := v.toNat_lt
  rw [deserU32, serU32, takeNumber_append hfits, Option.map_some, UInt32.ofNat_toNat]

theorem deserS32_serS32 (v : Int32) : Undoes deserS32 serS32 v := by
  intro rest
  rw [deserS32, serS32, deserU32_serU32 v.toUInt32 rest, Option.map_some, Int32.toInt32_toUInt32]

theorem deserS64_serS64 (v : Int64) : Undoes deserS64 serS64 v := by
  intro rest
  have hfits : v.toUInt64.toNat < 256 ^ 8 := v.toUInt64.toNat_lt
  rw [deserS64, serS64, takeNumber_append hfits, Option.map_some, UInt64.ofNat_toNat,
    Int64.toInt64_toUInt64]

/-- A length is read back. -/
theorem deserVarlen_serVarlen (vlen : UInt32) : Undoes deserVarlen serVarlen vlen := by
  intro rest
  have hbound := vlen.toNat_lt
  rw [serVarlen]
  by_cases hbyte : vlen < 253
  · have hsmall : vlen.toNat < 253 := UInt32.lt_iff_toNat_lt.mp hbyte
    have hcode : (UInt8.ofNat vlen.toNat).toNat = vlen.toNat := by
      rw [UInt8.toNat_ofNat']
      exact Nat.mod_eq_of_lt (by omega)
    have hother : ∀ code : UInt8, 253 ≤ code.toNat → UInt8.ofNat vlen.toNat ≠ code := by
      intro code hcodeLow heq
      rw [← heq, hcode] at hcodeLow
      omega
    have hvalue : (UInt8.ofNat vlen.toNat).toUInt32 = vlen := by
      apply UInt32.toNat_inj.mp
      rw [UInt8.toNat_toUInt32, hcode]
    rw [if_pos hbyte, toBytes, toBytes, List.cons_append, deserVarlen,
      if_neg (hother 253 (by decide)), if_neg (hother 254 (by decide)),
      if_neg (hother 255 (by decide)), hvalue]
    rfl
  · rw [if_neg hbyte]
    by_cases hshort : vlen < 0x10000
    · have hfits : vlen.toNat < 256 ^ 2 := UInt32.lt_iff_toNat_lt.mp hshort
      rw [if_pos hshort, List.cons_append, deserVarlen, if_pos rfl, takeNumber_append hfits,
        Option.map_some, UInt32.ofNat_toNat]
    · have hfits : vlen.toNat < 256 ^ 4 := hbound
      rw [if_neg hshort, List.cons_append, deserVarlen, if_neg (by decide), if_pos rfl,
        takeNumber_append hfits, Option.map_some, UInt32.ofNat_toNat]

/-! ## Scripts, inputs and outputs -/

/-- A script that its length can be written of. -/
def Sized (script : Bytes) : Prop := script.length < 2 ^ 32

theorem toNat_ofNat_of_lt {count : Nat} (h : count < 2 ^ 32) : (UInt32.ofNat count).toNat = count := by
  rw [UInt32.toNat_ofNat']
  exact Nat.mod_eq_of_lt h

theorem deserVarstr_serVarstr {script : Bytes} (h : Sized script) :
    Undoes deserVarstr serVarstr script := by
  intro rest
  have hlength := toNat_ofNat_of_lt h
  rw [serVarstr, deserVarstr]
  by_cases hempty : script.length = 0
  · rw [if_pos hempty, deserVarlen_serVarlen 0 rest, List.eq_nil_of_length_eq_zero hempty]
    exact takeBytes_append [] rest
  · rw [if_neg hempty, List.append_assoc,
      deserVarlen_serVarlen (UInt32.ofNat script.length) (script ++ rest)]
    simp only [Option.bind_eq_bind, Option.bind_some]
    rw [hlength]
    exact takeBytes_append script rest

/-- A hash of 32 bytes is read back. -/
theorem deserU256_append (hash : Vector UInt8 32) (rest : Bytes) :
    deserU256 (hash.toList ++ rest) = (hash, rest) := by
  have htake := takeBytes_append hash.toList rest
  have hlength : hash.toList.length = 32 := Vector.length_toList
  have hcopy : memcpy (Vector.replicate 32 0) 0 hash.toList = hash := by
    apply Vector.ext
    intro i hi
    have hbyte := getElem?_memcpy hash.toList (Vector.replicate 32 0) 0 i hi
    rw [if_pos ⟨Nat.zero_le i, by omega⟩, Nat.sub_zero, Vector.getElem?_toList,
      Vector.getElem?_eq_getElem hi, Vector.getElem?_eq_getElem hi] at hbyte
    exact Option.some.inj hbyte
  rw [hlength] at htake
  rw [deserU256, htake]
  simp only [hcopy]

theorem deserTxIn_serialize {txIn : TxIn} (h : Sized txIn.scriptSig) :
    Undoes deserTxIn TxIn.serialize txIn := by
  intro rest
  rw [TxIn.serialize, deserTxIn]
  simp only [List.append_assoc, deserU256_append]
  rw [deserU32_serU32 txIn.prevoutN]
  simp only [Option.bind_eq_bind, Option.bind_some]
  rw [deserVarstr_serVarstr h]
  simp only [Option.bind_some]
  rw [deserU32_serU32 txIn.sequence]
  rfl

theorem deserTxOut_serialize {txOut : TxOut} (h : Sized txOut.scriptPubkey) :
    Undoes deserTxOut TxOut.serialize txOut := by
  intro rest
  rw [TxOut.serialize, deserTxOut, List.append_assoc, deserS64_serS64 txOut.value]
  simp only [Option.bind_eq_bind, Option.bind_some]
  rw [deserVarstr_serVarstr h]
  rfl

/-! ## Whole transactions -/

/-- Every length can be written. -/
structure Tx.WellSized (tx : Tx) : Prop where
  inputs : tx.vin.length < 2 ^ 32
  outputs : tx.vout.length < 2 ^ 32
  scriptSigs : ∀ txIn ∈ tx.vin, Sized txIn.scriptSig
  scriptPubkeys : ∀ txOut ∈ tx.vout, Sized txOut.scriptPubkey

/-- **Reading back.** A transaction is read as it was written, whatever stands behind it. -/
theorem deserTx_serialize {tx : Tx} (h : tx.WellSized) : Undoes deserTx Tx.serialize tx := by
  intro rest
  rw [Tx.serialize, deserTx]
  simp only [List.append_assoc]
  rw [deserS32_serS32 tx.version]
  simp only [Option.bind_eq_bind, Option.bind_some]
  rw [deserVarlen_serVarlen (UInt32.ofNat tx.vin.length)]
  simp only [Option.bind_some]
  rw [toNat_ofNat_of_lt h.inputs,
    readMany_flatMap fun txIn hmem => deserTxIn_serialize (h.scriptSigs txIn hmem)]
  simp only [Option.bind_some]
  rw [deserVarlen_serVarlen (UInt32.ofNat tx.vout.length)]
  simp only [Option.bind_some]
  rw [toNat_ofNat_of_lt h.outputs,
    readMany_flatMap fun txOut hmem => deserTxOut_serialize (h.scriptPubkeys txOut hmem)]
  simp only [Option.bind_some]
  rw [deserU32_serU32 tx.locktime]
  rfl

/-! ## Short transactions -/

/-- A script is written with its length in front. -/
theorem length_serVarstr (script : Bytes) : script.length + 1 ≤ (serVarstr script).length := by
  have hvarlen : ∀ vlen : UInt32, 1 ≤ (serVarlen vlen).length := by
    intro vlen
    rw [serVarlen]
    split
    · rw [length_toBytes]
    · split
      · exact Nat.succ_le_succ (Nat.zero_le _)
      · exact Nat.succ_le_succ (Nat.zero_le _)
  rw [serVarstr]
  by_cases hempty : script.length = 0
  · rw [if_pos hempty, hempty]
    exact hvarlen 0
  · have hpos := hvarlen (UInt32.ofNat script.length)
    rw [if_neg hempty, List.length_append]
    omega

theorem TxIn.length_serialize (txIn : TxIn) :
    txIn.scriptSig.length + 41 ≤ txIn.serialize.length := by
  have hscript := length_serVarstr txIn.scriptSig
  simp only [TxIn.serialize, serU32, List.length_append, Vector.length_toList, length_toBytes]
  omega

theorem TxOut.length_serialize (txOut : TxOut) :
    txOut.scriptPubkey.length + 9 ≤ txOut.serialize.length := by
  have hscript := length_serVarstr txOut.scriptPubkey
  simp only [TxOut.serialize, serS64, List.length_append, length_toBytes]
  omega

/-- The inputs and the outputs are written side by side. -/
theorem Tx.length_serialize (tx : Tx) :
    (tx.vin.map fun txIn => txIn.serialize.length).sum +
        (tx.vout.map fun txOut => txOut.serialize.length).sum + 8 ≤ tx.serialize.length := by
  simp only [Tx.serialize, serS32, serU32, List.length_append, List.length_flatMap, length_toBytes]
  omega

/-- Every length of a short transaction can be written. -/
theorem Tx.wellSized_of_short {tx : Tx} (hshort : tx.serialize.length < 2 ^ 32) : tx.WellSized := by
  have hall := tx.length_serialize
  have hins : ∀ length ∈ tx.vin.map (fun txIn => txIn.serialize.length), 1 ≤ length := by
    intro length hmem
    rcases List.mem_map.mp hmem with ⟨txIn, -, rfl⟩
    exact (Nat.le_add_left 1 _).trans ((Nat.add_le_add_left (by decide) _).trans
      txIn.length_serialize)
  have houts : ∀ length ∈ tx.vout.map (fun txOut => txOut.serialize.length), 1 ≤ length := by
    intro length hmem
    rcases List.mem_map.mp hmem with ⟨txOut, -, rfl⟩
    exact (Nat.le_add_left 1 _).trans ((Nat.add_le_add_left (by decide) _).trans
      txOut.length_serialize)
  have hinputs := List.length_le_sum_of_one_le _ hins
  have houtputs := List.length_le_sum_of_one_le _ houts
  rw [List.length_map] at hinputs houtputs
  apply Tx.WellSized.mk
  · omega
  · omega
  · intro txIn hmem
    have hone := List.le_sum_of_mem (List.mem_map_of_mem (f := fun txIn => txIn.serialize.length) hmem)
    have hscript := txIn.length_serialize
    rw [Sized]
    omega
  · intro txOut hmem
    have hone := List.le_sum_of_mem
      (List.mem_map_of_mem (f := fun txOut => txOut.serialize.length) hmem)
    have hscript := txOut.length_serialize
    rw [Sized]
    omega

/-! ## What is accepted -/

/-- A script that is read has a length of 32 bits. -/
theorem sized_of_deserVarstr {buf rest script : Bytes}
    (hread : deserVarstr buf = some (script, rest)) : Sized script := by
  rw [deserVarstr, Option.bind_eq_bind, Option.bind_eq_some_iff] at hread
  rcases hread with ⟨⟨len, behind⟩, -, htake⟩
  simp only [takeBytes] at htake
  split at htake
  · cases htake
  · next hlong =>
      rcases Prod.mk.inj (Option.some.inj htake) with ⟨rfl, -⟩
      have hbound := len.toNat_lt
      rw [Sized, List.length_take]
      omega

theorem sized_of_deserTxIn {buf rest : Bytes} {txIn : TxIn}
    (hread : deserTxIn buf = some (txIn, rest)) : Sized txIn.scriptSig := by
  simp only [deserTxIn, Option.bind_eq_bind, Option.bind_eq_some_iff, Option.some.injEq,
    Prod.mk.injEq] at hread
  rcases hread with ⟨prevoutN, -, script, hscript, sequence, -, rfl, -⟩
  exact sized_of_deserVarstr hscript

theorem sized_of_deserTxOut {buf rest : Bytes} {txOut : TxOut}
    (hread : deserTxOut buf = some (txOut, rest)) : Sized txOut.scriptPubkey := by
  simp only [deserTxOut, Option.bind_eq_bind, Option.bind_eq_some_iff, Option.some.injEq,
    Prod.mk.injEq] at hread
  rcases hread with ⟨value, -, script, hscript, rfl, -⟩
  exact sized_of_deserVarstr hscript

/-- So every length of a transaction that is read can be written again. -/
theorem wellSized_of_deserTx {buf rest : Bytes} {tx : Tx} (hread : deserTx buf = some (tx, rest)) :
    tx.WellSized := by
  simp only [deserTx, Option.bind_eq_bind, Option.bind_eq_some_iff, Option.some.injEq,
    Prod.mk.injEq] at hread
  rcases hread with ⟨version, -, inputs, -, vin, hvin, outputs, -, vout, hvout, locktime, -, rfl, -⟩
  have hinputs : vin.1.length = inputs.1.toNat := length_of_readMany hvin
  have houtputs : vout.1.length = outputs.1.toNat := length_of_readMany hvout
  exact
    { inputs := hinputs ▸ inputs.1.toNat_lt
      outputs := houtputs ▸ outputs.1.toNat_lt
      scriptSigs := forall_of_readMany (fun _ _ _ => sized_of_deserTxIn) hvin
      scriptPubkeys := forall_of_readMany (fun _ _ _ => sized_of_deserTxOut) hvout }

/-! ## Hexadecimal text -/

/-- The two digits of a byte give it back. -/
theorem hexValue_hexDigit (byte : UInt8) :
    (hexValue (hexDigit (byte >>> 4 &&& 15)) <<< 4 ||| hexValue (hexDigit (byte &&& 15))) =
      byte := by
  have hall : ∀ code : Fin 256,
      (hexValue (hexDigit (UInt8.ofNat code >>> 4 &&& 15)) <<< 4 |||
        hexValue (hexDigit (UInt8.ofNat code &&& 15))) = UInt8.ofNat code := by decide +kernel
  have hbyte := hall ⟨byte.toNat, byte.toNat_lt⟩
  rw [UInt8.ofNat_toNat] at hbyte
  exact hbyte

/-- The bytes are read from their text, and behind them what comes of the rest. -/
theorem utilsHexToBin_append (bin rest : Bytes) :
    utilsHexToBin (hexText bin ++ rest) = bin ++ utilsHexToBin rest := by
  induction bin with
  | nil => rfl
  | cons byte bin ih =>
      have hfirst := hexValue_hexDigit byte
      rw [hexText, List.flatMap_cons, ← hexText, List.append_assoc]
      rw [List.cons_append, List.cons_append, List.nil_append, utilsHexToBin, hfirst, ih]
      rfl

theorem utilsHexToBin_hexText (bin : Bytes) : utilsHexToBin (hexText bin) = bin := by
  have hread := utilsHexToBin_append bin []
  rw [List.append_nil] at hread
  exact hread.trans (List.append_nil bin)

theorem length_hexText (bin : Bytes) : (hexText bin).length = 2 * bin.length := by
  induction bin with
  | nil => rfl
  | cons byte bin ih =>
      rw [hexText, List.flatMap_cons, ← hexText, List.length_append, ih, List.length_cons]
      simp only [List.length_cons, List.length_nil]
      omega

/-- A text that is there is that of the bytes, and short enough. -/
theorem utilsUint8ToHex_eq_some_iff {bin text : Bytes} :
    utilsUint8ToHex bin = some text ↔ bin.length ≤ 1023 ∧ hexText bin = text := by
  rw [utilsUint8ToHex]
  by_cases hlong : bin.length > toUint8HexBufLen / 2 - 1
  · rw [if_pos hlong]
    exact iff_of_false (fun h => by cases h) fun h => absurd h.1 (Nat.not_le_of_gt hlong)
  · rw [if_neg hlong, Option.some_inj]
    exact (and_iff_right (Nat.le_of_not_gt hlong)).symm

theorem utilsUint8ToHex_eq_none_iff {bin : Bytes} : utilsUint8ToHex bin = none ↔ 1023 < bin.length := by
  rw [utilsUint8ToHex, ite_eq_left_iff]
  exact ⟨fun h => Nat.lt_of_not_le fun hle => Option.some_ne_none _ (h (Nat.not_lt.mpr hle)),
    fun h hnot => absurd h hnot⟩

/-- **Raw transactions.** The text of a transaction is there exactly if its bytes and a NUL fit
the buffer; read again, it gives the transaction. And whatever text is accepted gives its
transaction again when that is written anew. -/
theorem raw_transactions :
    (∀ tx : Tx, tx.WellSized →
      ((utilsUint8ToHex tx.serialize).isSome ↔ 2 * tx.serialize.length + 1 < toUint8HexBufLen) ∧
        ∀ raw, utilsUint8ToHex tx.serialize = some raw →
          deserTx (utilsHexToBin raw) = some (tx, [])) ∧
      ∀ (text rest : Bytes) (tx : Tx), deserTx (utilsHexToBin text) = some (tx, rest) →
        deserTx (utilsHexToBin (hexText tx.serialize)) = some (tx, []) := by
  have hread : ∀ tx : Tx, tx.WellSized →
      deserTx (utilsHexToBin (hexText tx.serialize)) = some (tx, []) := by
    intro tx hsized
    have hback := deserTx_serialize hsized []
    rw [List.append_nil] at hback
    rw [utilsHexToBin_hexText, hback]
  apply And.intro
  · intro tx hsized
    rw [utilsUint8ToHex]
    by_cases hlong : tx.serialize.length > toUint8HexBufLen / 2 - 1
    · rw [if_pos hlong]
      refine ⟨iff_of_false (fun h => by cases h) ?_, fun raw h => by cases h⟩
      simp only [toUint8HexBufLen] at hlong ⊢
      omega
    · rw [if_neg hlong]
      refine ⟨iff_of_true rfl ?_, ?_⟩
      · simp only [toUint8HexBufLen] at hlong ⊢
        omega
      · intro raw hraw
        rw [← Option.some.inj hraw]
        exact hread tx hsized
  · intro text rest tx haccepted
    exact hread tx (wellSized_of_deserTx haccepted)

/-- A transaction without inputs that pays one koinu to the empty script. -/
def oneKoinu : Tx := ⟨1, [], [⟨1, []⟩], 0⟩

/-- It is read from its own text, and from one that counts the outputs in three bytes. -/
theorem raw_transactions_oneKoinu :
    ((utilsUint8ToHex oneKoinu.serialize).isSome ↔
        2 * oneKoinu.serialize.length + 1 < toUint8HexBufLen) ∧
      (∀ raw, utilsUint8ToHex oneKoinu.serialize = some raw →
        deserTx (utilsHexToBin raw) = some (oneKoinu, [])) ∧
      deserTx (utilsHexToBin (ascii "0100000000fd010001000000000000000000000000")) =
        some (oneKoinu, []) ∧
      deserTx (utilsHexToBin (hexText oneKoinu.serialize)) = some (oneKoinu, []) := by
  have hsized : oneKoinu.WellSized := Tx.wellSized_of_short (by decide)
  have haccepted : deserTx (utilsHexToBin (ascii "0100000000fd010001000000000000000000000000")) =
      some (oneKoinu, []) := by
    decide +kernel
  exact ⟨(raw_transactions.1 oneKoinu hsized).1, (raw_transactions.1 oneKoinu hsized).2, haccepted,
    raw_transactions.2 _ _ _ haccepted⟩

end RadioDoge.Libdogecoin
