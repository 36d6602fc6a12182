/-
# Where serdog keeps its keys

`writeAddressToFile` encrypts the private key in the buffer that it is given, which is
the loaded key itself, and writes what the buffer then holds. Saving twice with one
password writes the key as it was. `readAddressFromFile` decrypts what it reads.

A password that does not fit its buffer, an empty password, and a file that is missing
have no result. The file can be opened for writing.
-/

import RadioDoge.Serdog.Receive

namespace RadioDoge.Serdog

/-- `P2PKH_ADDR_STRINGLEN`. -/
abbrev p2pkhAddrStringlen : Nat := 35

/-- `WIF_UNCOMPRESSED_PRIVKEY_STRINGLEN`. -/
abbrev wifUncompressedPrivkeyStringlen : Nat := 53

/-- The size of `passwordBuffer`. -/
abbrev passwordBufferSize : Nat := 32

/-- The loop of `encryptString`: `remaining` bytes to go. -/
def encryptLoop {n : Nat} (password : Bytes) :
    Nat → Nat → Nat → Vector UInt8 n → Vector UInt8 n
  | 0, _, _, string => string
  | remaining + 1, i, j, string =>
      encryptLoop password remaining (i + 1) ((j + 1) % strlen password)
        (string.setIfInBounds i (string[i]?.getD 0 ^^^ password[j]?.getD 0))

/-- `encryptString`. A password without characters is divided by. -/
def encryptString {n : Nat} (password : Bytes) (string : Vector UInt8 n)
    (stringLength startingIndex : Nat) : Option (Vector UInt8 n) :=
  if strlen password = 0 ∧ startingIndex < stringLength then none
  else some (encryptLoop password (stringLength - startingIndex) startingIndex 0 string)

/-- `fgets` of at most `count` bytes: the line with its end, and the bytes behind it. -/
def fgets : Nat → Bytes → Bytes × Bytes
  | count + 1, byte :: rest =>
      if byte = 10 then ([byte], rest)
      else
        let (line, rest) := fgets count rest
        (byte :: line, rest)
  | _, file => ([], file)

/-- `loadedDogeAddress`, `loadedPrivateKey`, and what the file holds. -/
structure KeyStore where
  pubAddress : Vector UInt8 p2pkhAddrStringlen
  privateKey : Vector UInt8 wifUncompressedPrivkeyStringlen
  file : Option Bytes

/-- The loaded address. -/
def KeyStore.address (keys : KeyStore) : Bytes := ofCString keys.pubAddress.toList

/-- `readAddressFromFile`. -/
def readAddressFromFile (password : Bytes) (keys : KeyStore) : Option KeyStore := do
  let file ← keys.file
  let (line, rest) := fgets (p2pkhAddrStringlen - 1) file
  -- at the end of the file the buffer keeps what it holds
  let pubAddress := if line = [] then keys.pubAddress else memcpy keys.pubAddress 0 (line ++ [0])
  let privateKey := memcpy keys.privateKey 0 (rest.take wifUncompressedPrivkeyStringlen)
  let privateKey ← encryptString password privateKey wifUncompressedPrivkeyStringlen 1
  some { keys with pubAddress, privateKey }

/-- `writeAddressToFile`. An address without a terminating NUL is read past its end. -/
def writeAddressToFile (password : Bytes) (keys : KeyStore) : Option KeyStore := do
  let privateKey ← encryptString password keys.privateKey wifUncompressedPrivkeyStringlen 1
  if (0 : UInt8) ∈ keys.pubAddress.toList then
    some { keys with privateKey, file := some (keys.address ++ privateKey.toList) }
  else none

/-- `getUserPassword`, with what the user types. -/
def getUserPassword (typed : Bytes) : Option Bytes :=
  (scanString (Vector.replicate passwordBufferSize 0) typed).map Vector.toList

/-- `saveDogecoinAddress`. -/
def saveDogecoinAddress (typed : Bytes) (keys : KeyStore) : Option KeyStore := do
  let passwordBuffer ← getUserPassword typed
  writeAddressToFile passwordBuffer keys

/-- `loadDogecoinAddress`. -/
def loadDogecoinAddress (typed : Bytes) (keys : KeyStore) : Option KeyStore := do
  let passwordBuffer ← getUserPassword typed
  readAddressFromFile passwordBuffer keys

/-! ## The encryption -/

section Encryption

variable {n : Nat} {password : Bytes}

/-- What the loop leaves at each index. -/
theorem getElem?_encryptLoop (remaining : Nat) :
    ∀ (i j : Nat) (string : Vector UInt8 n), j < strlen password → i + remaining ≤ n →
      ∀ k, (encryptLoop password remaining i j string)[k]? =
        if i ≤ k ∧ k < i + remaining then
          some (string[k]?.getD 0 ^^^ password[(j + (k - i)) % strlen password]?.getD 0)
        else string[k]? := by
  induction remaining with
  | zero =>
      intro i j string _ _ k
      have hout : ¬ (i ≤ k ∧ k < i + 0) := by omega
      rw [encryptLoop, if_neg hout]
  | succ remaining ih =>
      intro i j string hj hfits k
      have hpos : 0 < strlen password := by omega
      rw [encryptLoop, ih _ _ _ (Nat.mod_lt _ hpos) (by omega)]
      by_cases hk : k = i
      · subst hk
        have hlater : ¬ (k + 1 ≤ k ∧ k < k + 1 + remaining) := by omega
        have hin : k ≤ k ∧ k < k + (remaining + 1) := by omega
        rw [if_neg hlater, if_pos hin, Vector.getElem?_setIfInBounds_self_of_lt (by omega),
          Nat.sub_self, Nat.add_zero, Nat.mod_eq_of_lt hj]
      · rw [Vector.getElem?_setIfInBounds_ne (Ne.symm hk)]
        by_cases hin : i ≤ k ∧ k < i + (remaining + 1)
        · have hlater : i + 1 ≤ k ∧ k < i + 1 + remaining := by omega
          have hstep : j + 1 + (k - (i + 1)) = j + (k - i) := by omega
          rw [if_pos hlater, if_pos hin, Nat.mod_add_mod, hstep]
        · have hlater : ¬ (i + 1 ≤ k ∧ k < i + 1 + remaining) := by omega
          rw [if_neg hlater, if_neg hin]

/-- With a password, the bytes from index 1 on are combined with its characters. -/
theorem encryptString_spec (hpassword : 0 < strlen password) (hn : 0 < n)
    (string : Vector UInt8 n) :
    ∃ encrypted, encryptString password string n 1 = some encrypted ∧
      ∀ k < n, encrypted[k]? =
        if 1 ≤ k then some (string[k]?.getD 0 ^^^ password[(k - 1) % strlen password]?.getD 0)
        else string[k]? := by
  refine ⟨encryptLoop password (n - 1) 1 0 string, ?_, fun k hk => ?_⟩
  · have hsome : ¬ (strlen password = 0 ∧ 1 < n) := fun h => absurd h.1 hpassword.ne'
    rw [encryptString, if_neg hsome]
  · have hin : (1 ≤ k ∧ k < 1 + (n - 1)) ↔ 1 ≤ k := by omega
    rw [getElem?_encryptLoop (n - 1) 1 0 string hpassword (by omega)]
    simp only [hin, Nat.zero_add]

/-- Encrypting twice gives the string back. -/
theorem encryptString_twice (hpassword : 0 < strlen password) (hn : 0 < n)
    {string encrypted : Vector UInt8 n}
    (hencrypted : encryptString password string n 1 = some encrypted) :
    encryptString password encrypted n 1 = some string := by
  obtain ⟨first, hfirst, hbytes⟩ := encryptString_spec hpassword hn string
  obtain rfl : first = encrypted := Option.some.inj (hfirst.symm.trans hencrypted)
  obtain ⟨second, hsecond, hagain⟩ := encryptString_spec hpassword hn first
  rw [hsecond, Option.some.injEq]
  apply Vector.ext
  intro k hk
  apply Option.some.inj
  rw [← Vector.getElem?_eq_getElem hk, ← Vector.getElem?_eq_getElem hk, hagain k hk, hbytes k hk]
  split
  · rw [Option.getD_some, UInt8.xor_assoc, UInt8.xor_self, UInt8.xor_zero,
      Vector.getElem?_eq_getElem hk, Option.getD_some]
  · rfl

/-- What is encrypted is encrypted with a password. -/
theorem strlen_pos_of_encryptString (hn : 1 < n) {string encrypted : Vector UInt8 n}
    (hencrypted : encryptString password string n 1 = some encrypted) : 0 < strlen password := by
  by_contra hempty
  have hnone : strlen password = 0 ∧ 1 < n := ⟨Nat.eq_zero_of_not_pos hempty, hn⟩
  rw [encryptString, if_pos hnone] at hencrypted
  cases hencrypted

/-- A password changes the byte at index 1. -/
theorem encryptString_ne (hn : 1 < n) {string encrypted : Vector UInt8 n}
    (hencrypted : encryptString password string n 1 = some encrypted) : encrypted ≠ string := by
  have hpassword := strlen_pos_of_encryptString hn hencrypted
  obtain ⟨first, hfirst, hbytes⟩ := encryptString_spec hpassword (by omega) string
  obtain rfl : first = encrypted := Option.some.inj (hfirst.symm.trans hencrypted)
  rintro rfl
  have hone := hbytes 1 hn
  rw [if_pos (Nat.le_refl 1), Vector.getElem?_eq_getElem hn, Option.getD_some, Option.some.injEq,
    Nat.sub_self, Nat.zero_mod] at hone
  have hchar : password[0]?.getD 0 = 0 := by
    have hcancel := congrArg (fun byte => first[1] ^^^ byte) hone
    simp only [← UInt8.xor_assoc, UInt8.xor_self, UInt8.zero_xor] at hcancel
    exact hcancel.symm
  cases password with
  | nil => exact absurd hpassword (Nat.lt_irrefl 0)
  | cons char rest =>
      obtain rfl : char = 0 := hchar
      exact absurd hpassword (Nat.lt_irrefl 0)

end Encryption

/-! ## Saving and loading -/

section Saving

variable {keys saved : KeyStore} {typed : Bytes}

/-- What a save does: the loaded key is encrypted, and so it is written. -/
theorem saveDogecoinAddress_cases (hsaved : saveDogecoinAddress typed keys = some saved) :
    ∃ passwordBuffer encrypted, getUserPassword typed = some passwordBuffer ∧
      encryptString passwordBuffer keys.privateKey wifUncompressedPrivkeyStringlen 1 =
        some encrypted ∧
      saved = { keys with privateKey := encrypted, file := some (keys.address ++ encrypted.toList) } := by
  rw [saveDogecoinAddress, Option.bind_eq_bind, Option.bind_eq_some_iff] at hsaved
  obtain ⟨passwordBuffer, hpassword, hwritten⟩ := hsaved
  rw [writeAddressToFile, Option.bind_eq_bind, Option.bind_eq_some_iff] at hwritten
  obtain ⟨encrypted, hencrypted, hwritten⟩ := hwritten
  split at hwritten
  · exact ⟨passwordBuffer, encrypted, hpassword, hencrypted, (Option.some.inj hwritten).symm⟩
  · cases hwritten

/-- A save leaves another key in memory. -/
theorem privateKey_ne_of_save (hsaved : saveDogecoinAddress typed keys = some saved) :
    saved.privateKey ≠ keys.privateKey := by
  obtain ⟨passwordBuffer, encrypted, -, hencrypted, rfl⟩ := saveDogecoinAddress_cases hsaved
  exact encryptString_ne (by decide) hencrypted

/-- Saving twice with one password writes the key as it was. -/
theorem save_twice {again : KeyStore} (hsaved : saveDogecoinAddress typed keys = some saved)
    (hagain : saveDogecoinAddress typed saved = some again) :
    again.privateKey = keys.privateKey ∧
      again.file = some (keys.address ++ keys.privateKey.toList) := by
  obtain ⟨passwordBuffer, encrypted, hpassword, hencrypted, rfl⟩ := saveDogecoinAddress_cases hsaved
  obtain ⟨passwordBuffer', decrypted, hpassword', hdecrypted, rfl⟩ := saveDogecoinAddress_cases hagain
  obtain rfl : passwordBuffer = passwordBuffer' :=
    Option.some.inj (hpassword.symm.trans hpassword')
  have hpos := strlen_pos_of_encryptString (by decide) hencrypted
  obtain rfl : keys.privateKey = decrypted :=
    Option.some.inj ((encryptString_twice hpos (by decide) hencrypted).symm.trans hdecrypted)
  exact ⟨rfl, rfl⟩

/-- A line without an end is cut where the buffer ends. -/
theorem fgets_append (text rest : Bytes) (hline : (10 : UInt8) ∉ text) :
    fgets text.length (text ++ rest) = (text, rest) := by
  induction text with
  | nil => rfl
  | cons byte text ih =>
      rw [List.mem_cons, not_or] at hline
      rw [List.length_cons, List.cons_append, fgets, if_neg (Ne.symm hline.1), ih hline.2]

/-- Loading with the password of the last save gives the key from before it; the address
comes back with it if it is as long as the buffer. -/
theorem load_saved (hsaved : saveDogecoinAddress typed keys = some saved)
    (hlength : keys.address.length = p2pkhAddrStringlen - 1) (hline : (10 : UInt8) ∉ keys.address) :
    ∃ loaded, loadDogecoinAddress typed saved = some loaded ∧
      loaded.privateKey = keys.privateKey ∧ loaded.address = keys.address := by
  obtain ⟨passwordBuffer, encrypted, hpassword, hencrypted, rfl⟩ := saveDogecoinAddress_cases hsaved
  have hpos := strlen_pos_of_encryptString (by decide) hencrypted
  have hread := fgets_append keys.address encrypted.toList hline
  have hne : keys.address ≠ [] := by
    intro hnil
    rw [hnil] at hlength
    exact absurd hlength (by decide)
  have hkey : memcpy encrypted 0 (encrypted.toList.take wifUncompressedPrivkeyStringlen) =
      encrypted := by
    have hwhole : encrypted.toList.take wifUncompressedPrivkeyStringlen = encrypted.toList := by
      rw [List.take_of_length_le (Nat.le_of_eq Vector.length_toList)]
    apply Vector.toList_inj.mp
    rw [hwhole, toList_memcpy _ _ (Nat.le_of_eq Vector.length_toList), List.drop_length,
      List.append_nil]
  have haddress : ofCString (memcpy keys.pubAddress 0 (keys.address ++ [0])).toList = keys.address := by
    have hfits : (keys.address ++ [0]).length ≤ p2pkhAddrStringlen := by
      rw [List.length_append, List.length_singleton, hlength]
      decide
    have hfree : (0 : UInt8) ∉ keys.address := fun hmem =>
      absurd (List.mem_takeWhile_imp hmem) (by decide)
    rw [toList_memcpy _ _ hfits, List.append_assoc]
    exact (ofCString_append_iff _ _).mpr ⟨hfree, rfl⟩
  rw [hlength] at hread
  refine ⟨{ keys with
    pubAddress := memcpy keys.pubAddress 0 (keys.address ++ [0])
    file := some (keys.address ++ encrypted.toList) }, ?_, rfl, haddress⟩
  rw [loadDogecoinAddress, hpassword, Option.bind_eq_bind, Option.bind_some, readAddressFromFile]
  simp only [Option.bind_eq_bind, Option.bind_some, hread, if_neg hne, hkey,
    encryptString_twice hpos (by decide) hencrypted]

end Saving

/-! ## Sequences -/

/-- A save or a load, with the password that is typed. -/
inductive KeyOperation
  | save (typed : Bytes)
  | load (typed : Bytes)

/-- A save has a password, and a load that of the last save. -/
def UsesLastPassword : Option Bytes → List KeyOperation → Prop
  | _, [] => True
  | _, .save typed :: rest => typed ≠ [] ∧ UsesLastPassword (some typed) rest
  | last, .load typed :: rest => last = some typed ∧ UsesLastPassword last rest

/-- Every save leaves the key in memory and writes it encrypted, and every load returns
the key and the address. -/
def KeysKept (key : Vector UInt8 wifUncompressedPrivkeyStringlen) (address : Bytes) :
    KeyStore → List KeyOperation → Prop
  | _, [] => True
  | keys, .save typed :: rest =>
      ∃ next, saveDogecoinAddress typed keys = some next ∧ next.privateKey = key ∧
        (∃ encrypted, encryptString typed key wifUncompressedPrivkeyStringlen 1 = some encrypted ∧
          next.file = some (address ++ encrypted.toList)) ∧
        KeysKept key address next rest
  | keys, .load typed :: rest =>
      ∃ next, loadDogecoinAddress typed keys = some next ∧ next.privateKey = key ∧
        next.address = address ∧ KeysKept key address next rest

/-- The first save already changes the key. -/
theorem not_keysKept_save (keys : KeyStore) (typed : Bytes) (rest : List KeyOperation) :
    ¬ KeysKept keys.privateKey keys.address keys (.save typed :: rest) := by
  rintro ⟨next, hsaved, hkey, -⟩
  exact privateKey_ne_of_save hsaved hkey

/-- **Keys are never kept**: no sequence with an operation in it keeps them. -/
theorem keysKept_iff (keys : KeyStore) (operations : List KeyOperation)
    (hlast : UsesLastPassword none operations) :
    KeysKept keys.privateKey keys.address keys operations ↔ operations = [] := by
  cases operations with
  | nil => exact iff_of_true trivial rfl
  | cons operation rest =>
      refine iff_of_false ?_ (List.cons_ne_nil _ _)
      cases operation with
      | save typed => exact not_keysKept_save keys typed rest
      | load typed => cases hlast.1

/-- A key that is saved with the password `a`. -/
theorem keysKept_iff_one_save :
    KeysKept (Vector.replicate _ 81) [68]
        ⟨(Vector.replicate _ 0).setIfInBounds 0 68, Vector.replicate _ 81, none⟩ [.save [97]] ↔
      [KeyOperation.save [97]] = [] :=
  keysKept_iff ⟨(Vector.replicate _ 0).setIfInBounds 0 68, Vector.replicate _ 81, none⟩ [.save [97]]
    ⟨by decide, trivial⟩

/-- Saving twice with the password `a` does not keep the key. -/
theorem saves_do_not_keep_the_key :
    ¬ ∀ (keys : KeyStore) (operations : List KeyOperation), UsesLastPassword none operations →
      KeysKept keys.privateKey keys.address keys operations := by
  intro hall
  have hkept := hall ⟨(Vector.replicate _ 0).setIfInBounds 0 68, Vector.replicate _ 81, none⟩
    [.save [97], .save [97]] ⟨by decide, by decide, trivial⟩
  exact not_keysKept_save _ [97] [.save [97]] hkept

end RadioDoge.Serdog
