/-
# The address book and the watchlist

Adding an address writes the book first and asks the library afterwards; removing one
does the same. A library that refuses changes only the answer: the book keeps what was
written, and the next request finds an address that is registered and not watched, or
watched and not registered. The two agree as long as the library refuses nothing, and
no longer.
-/

import RadioDoge.Sharp.AddressGuard

namespace RadioDoge.Sharp

variable {W : Type} {library : WatchLibrary W} {watched : W → Set Bytes}

/-- What the library promises: it answers true exactly when it changed the watchlist,
and leaves it alone otherwise. -/
structure WatchLibrary.Lawful (library : WatchLibrary W) (watched : W → Set Bytes) : Prop where
  registered : ∀ (wallet : W) (address : Bytes),
    (library.registerWatchAddress wallet address).1 = true →
      address ∉ watched wallet ∧
        watched (library.registerWatchAddress wallet address).2 = insert address (watched wallet)
  not_registered : ∀ (wallet : W) (address : Bytes),
    (library.registerWatchAddress wallet address).1 = false →
      watched (library.registerWatchAddress wallet address).2 = watched wallet
  unregistered : ∀ (wallet : W) (address : Bytes),
    (library.unregisterWatchAddress wallet address).1 = true →
      address ∈ watched wallet ∧
        watched (library.unregisterWatchAddress wallet address).2 = watched wallet \ {address}
  not_unregistered : ∀ (wallet : W) (address : Bytes),
    (library.unregisterWatchAddress wallet address).1 = false →
      watched (library.unregisterWatchAddress wallet address).2 = watched wallet

/-- The registered addresses are the watched ones. -/
def WatchesBook (watched : W → Set Bytes) (hub : Hub W) : Prop :=
  {address | address ∈ hub.dogeAddressBook} = watched hub.wallet

/-- The request makes the hub call the library, and the library refuses. -/
def RegistrationRequest.Refused (library : WatchLibrary W) (hub : Hub W)
    (r : RegistrationRequest) : Prop :=
  r.address.length ≤ maxAddressLength ∧
    match RegistrationFunction.ofCode? r.regOpcode with
    | some .addRegistration =>
        hub.dogeAddressBook.lookup r.address = none ∧
          (library.registerWatchAddress hub.wallet r.address).1 = false
    | some .removeRegistration =>
        (hub.dogeAddressBook.lookup r.address).map AddressBookEntry.pin = some r.pin ∧
          (library.unregisterWatchAddress hub.wallet r.address).1 = false
    | _ => False

/-- The library refuses what this payload asks of it. -/
def WatchRefused (library : WatchLibrary W) (hub : Hub W) (payload : Bytes) : Prop :=
  ∃ (header : UInt8) (r : RegistrationRequest), payload = r.payload header ∧ r.Refused library hub

section Operations

variable (hlawful : library.Lawful watched) {hub : Hub W} (hwatches : WatchesBook watched hub)
  (sender : NodeAddress) {address : Bytes} (pin newPin : Pin)

include hlawful hwatches

/-- A new address is watched unless the library refuses. -/
theorem watchesBook_addRegistration_iff :
    WatchesBook watched (addRegistration library sender address pin hub).hub ↔
      ¬ (hub.dogeAddressBook.lookup address = none ∧
        (library.registerWatchAddress hub.wallet address).1 = false) := by
  cases hlookup : hub.dogeAddressBook.lookup address with
  | some entry =>
      rw [addRegistration_of_lookup library sender pin hub hlookup]
      exact iff_of_true hwatches fun h => by cases h.1
  | none =>
      have hfree : address ∉ hub.dogeAddressBook := AList.lookup_eq_none.mp hlookup
      have hkeys : {other | other ∈ hub.dogeAddressBook.insert address ⟨sender, pin⟩} =
          insert address (watched hub.wallet) := by
        rw [← hwatches]
        ext other
        exact AList.mem_insert _
      rw [addRegistration_of_none library sender pin hub hlookup, WatchesBook, hkeys]
      cases hanswer : (library.registerWatchAddress hub.wallet address).1 with
      | true =>
          rw [(hlawful.registered _ _ hanswer).2]
          exact iff_of_true rfl fun h => by cases h.2
      | false =>
          rw [hlawful.not_registered _ _ hanswer]
          refine iff_of_false ?_ fun h => h ⟨rfl, rfl⟩
          intro heq
          have hunwatched : address ∉ watched hub.wallet := by
            rw [← hwatches]
            exact hfree
          rw [← heq] at hunwatched
          exact hunwatched (Set.mem_insert _ _)

/-- A removed address is watched no more unless the library refuses. -/
theorem watchesBook_removeRegistration_iff :
    WatchesBook watched (removeRegistration library address pin hub).hub ↔
      ¬ ((hub.dogeAddressBook.lookup address).map AddressBookEntry.pin = some pin ∧
        (library.unregisterWatchAddress hub.wallet address).1 = false) := by
  cases hlookup : hub.dogeAddressBook.lookup address with
  | none =>
      rw [removeRegistration_of_none library pin hub hlookup]
      exact iff_of_true hwatches fun h => by cases h.1
  | some entry =>
      by_cases hpin : pin = entry.pin
      · subst hpin
        have hmem := mem_of_lookup hub hlookup
        have hkeys : {other | other ∈ hub.dogeAddressBook.erase address} =
            watched hub.wallet \ {address} := by
          rw [← hwatches]
          ext other
          exact AList.mem_erase.trans and_comm
        rw [removeRegistration_of_pin library hub hlookup, WatchesBook, hkeys]
        cases hanswer : (library.unregisterWatchAddress hub.wallet address).1 with
        | true =>
            rw [(hlawful.unregistered _ _ hanswer).2]
            exact iff_of_true rfl fun h => by cases h.2
        | false =>
            rw [hlawful.not_unregistered _ _ hanswer]
            refine iff_of_false ?_ fun h => h ⟨rfl, rfl⟩
            intro heq
            have hwatched : address ∈ watched hub.wallet := by
              rw [← hwatches]
              exact hmem
            rw [← heq] at hwatched
            exact hwatched.2 rfl
      · rw [removeRegistration_of_ne library pin hub hlookup hpin]
        exact iff_of_true hwatches fun h => hpin (Option.some.inj h.1).symm

omit hlawful in
/-- A new PIN does not touch the watchlist. -/
theorem watchesBook_changePin :
    WatchesBook watched (RegistrationRequest.changePin address pin newPin hub).hub := by
  cases hlookup : hub.dogeAddressBook.lookup address with
  | none =>
      rw [changePin_of_none pin newPin hub hlookup]
      exact hwatches
  | some entry =>
      by_cases hpin : pin = entry.pin
      · subst hpin
        have hmem := mem_of_lookup hub hlookup
        rw [changePin_of_pin newPin hub hlookup, WatchesBook, ← hwatches]
        ext other
        refine (AList.mem_insert _).trans ⟨?_, Or.inr⟩
        rintro (rfl | hother)
        · exact hmem
        · exact hother
      · rw [changePin_of_ne pin newPin hub hlookup hpin]
        exact hwatches

/-- **One request.** The book and the watchlist agree afterwards unless the library
refuses. -/
theorem watchesBook_perform_iff (r : RegistrationRequest) :
    WatchesBook watched (r.perform library sender hub).hub ↔ ¬ r.Refused library hub := by
  rw [RegistrationRequest.perform, RegistrationRequest.Refused]
  by_cases hshort : r.address.length ≤ maxAddressLength
  · rw [if_pos hshort, and_iff_right hshort]
    cases RegistrationFunction.ofCode? r.regOpcode with
    | none => exact iff_of_true hwatches not_false
    | some function =>
        cases function with
        | addRegistration => exact watchesBook_addRegistration_iff hlawful hwatches sender r.pin
        | removeRegistration => exact watchesBook_removeRegistration_iff hlawful hwatches r.pin
        | updatePin =>
            exact iff_of_true (watchesBook_changePin hwatches r.pin r.newPin) not_false
  · rw [if_neg hshort]
    exact iff_of_true hwatches fun h => hshort h.1

/-- One payload. -/
theorem watchesBook_registerDogeAddress_iff {payload : Bytes} {hub' : Hub W}
    {replies : List Bytes}
    (hstep : registerDogeAddress library sender payload hub = .ok (hub', replies)) :
    WatchesBook watched hub' ↔ ¬ WatchRefused library hub payload := by
  obtain ⟨header, r, hpayload, hhub⟩ := registerDogeAddress_eq_ok library hstep
  constructor
  · rintro hafter ⟨header', r', rfl, hrefused⟩
    rw [registerDogeAddress_payload] at hstep
    have hhub' : (r'.perform library sender hub).hub = hub' :=
      congrArg Prod.fst (Except.ok.inj hstep)
    rw [← hhub'] at hafter
    exact (watchesBook_perform_iff hlawful hwatches sender r').mp hafter hrefused
  · intro hgranted
    rw [hhub]
    exact (watchesBook_perform_iff hlawful hwatches sender r).mpr
      fun hrefused => hgranted ⟨header, r, hpayload, hrefused⟩

end Operations

/-! ## Runs -/

section Runs

/-- A run is its first part and the rest. -/
theorem registerAll_append {first second : List (NodeAddress × Bytes)} :
    ∀ {hub hub' : Hub W}, registerAll library hub (first ++ second) = .ok hub' ↔
      ∃ between, registerAll library hub first = .ok between ∧
        registerAll library between second = .ok hub' := by
  induction first with
  | nil =>
      intro hub hub'
      constructor
      · intro h
        exact ⟨hub, rfl, h⟩
      · rintro ⟨between, hfirst, hsecond⟩
        obtain rfl := Except.ok.inj hfirst
        exact hsecond
  | cons received rest ih =>
      intro hub hub'
      rw [List.cons_append, registerAll, registerAll]
      cases registerDogeAddress library received.1 received.2 hub with
      | error e =>
          constructor
          · intro h
            cases h
          · rintro ⟨between, hfirst, -⟩
            cases hfirst
      | ok result => exact ih

/-- A run of one payload. -/
theorem registerAll_singleton {received : NodeAddress × Bytes} {hub hub' : Hub W} :
    registerAll library hub [received] = .ok hub' ↔
      ∃ replies, registerDogeAddress library received.1 received.2 hub = .ok (hub', replies) := by
  rw [registerAll]
  cases registerDogeAddress library received.1 received.2 hub with
  | error e =>
      constructor
      · intro h
        cases h
      · rintro ⟨replies, h⟩
        cases h
  | ok result =>
      constructor
      · intro h
        obtain rfl := Except.ok.inj h
        exact ⟨result.2, rfl⟩
      · rintro ⟨replies, h⟩
        obtain rfl := Except.ok.inj h
        rfl

end Runs

/-- **The watchlist is the book, as long as the library refuses nothing.** In a run from
an empty book and an empty watchlist, the registered addresses are the watched ones after
every payload exactly if the library refuses no call that the hub makes. -/
theorem watchesBook_iff (hlawful : library.Lawful watched) {start : Hub W}
    (hbook : start.dogeAddressBook = ∅) (hwatched : watched start.wallet = ∅)
    (requests : List (NodeAddress × Bytes)) :
    (∀ (before after : List (NodeAddress × Bytes)) (hub : Hub W), requests = before ++ after →
      registerAll library start before = .ok hub → WatchesBook watched hub) ↔
    ∀ (before after : List (NodeAddress × Bytes)) (received : NodeAddress × Bytes) (hub : Hub W),
      requests = before ++ received :: after → registerAll library start before = .ok hub →
        ¬ WatchRefused library hub received.2 := by
  constructor
  · rintro hall before after ⟨sender, payload⟩ hub hrequests hbefore ⟨header, r, rfl, hrefused⟩
    have hwatches := hall before ((sender, r.payload header) :: after) hub hrequests hbefore
    have hstep := registerDogeAddress_payload library sender r header hub
    have hrun : registerAll library start (before ++ [(sender, r.payload header)]) =
        .ok (r.perform library sender hub).hub :=
      registerAll_append.mpr ⟨hub, hbefore, registerAll_singleton.mpr ⟨_, hstep⟩⟩
    have hafter := hall (before ++ [(sender, r.payload header)]) after _
      (by rw [hrequests, List.append_assoc, List.singleton_append]) hrun
    exact (watchesBook_perform_iff hlawful hwatches sender r).mp hafter hrefused
  · intro hgranted before
    induction before using List.reverseRecOn with
    | nil =>
        intro after hub _ hempty
        obtain rfl := Except.ok.inj hempty
        rw [WatchesBook, hbook, hwatched]
        exact Set.eq_empty_of_forall_notMem fun address => AList.notMem_empty address
    | append_singleton before received ih =>
        intro after hub hrequests hbefore
        rw [List.append_assoc, List.singleton_append] at hrequests
        obtain ⟨between, hbetween, hlast⟩ := registerAll_append.mp hbefore
        obtain ⟨replies, hstep⟩ := registerAll_singleton.mp hlast
        have hwatches := ih (received :: after) between hrequests hbetween
        exact (watchesBook_registerDogeAddress_iff hlawful hwatches received.1 hstep).mpr
          (hgranted before after received between hrequests hbetween)

/-- A library that watches addresses of 34 characters and no others. -/
def pickyLibrary : WatchLibrary (List Bytes) where
  registerWatchAddress := fun wallet address =>
    if address ∉ wallet ∧ address.length = 34 then (true, address :: wallet) else (false, wallet)
  unregisterWatchAddress := fun wallet address =>
    if address ∈ wallet then (true, wallet.filter (· ≠ address)) else (false, wallet)

theorem pickyLibrary_lawful : pickyLibrary.Lawful fun wallet => {address | address ∈ wallet} := by
  refine ⟨?_, ?_, ?_, ?_⟩
  · intro wallet address hanswer
    by_cases hnew : address ∉ wallet ∧ address.length = 34
    · simp only [pickyLibrary, if_pos hnew]
      refine ⟨hnew.1, ?_⟩
      ext other
      exact List.mem_cons
    · simp only [pickyLibrary, if_neg hnew, Bool.false_eq_true] at hanswer
  · intro wallet address hanswer
    by_cases hnew : address ∉ wallet ∧ address.length = 34
    · simp only [pickyLibrary, if_pos hnew, Bool.true_eq_false] at hanswer
    · simp only [pickyLibrary, if_neg hnew]
  · intro wallet address hanswer
    by_cases hmem : address ∈ wallet
    · simp only [pickyLibrary, if_pos hmem]
      refine ⟨hmem, ?_⟩
      ext other
      exact List.mem_filter.trans (and_congr_right fun _ => by simp)
    · simp only [pickyLibrary, if_neg hmem, Bool.false_eq_true] at hanswer
  · intro wallet address hanswer
    by_cases hmem : address ∈ wallet
    · simp only [pickyLibrary, if_pos hmem, Bool.true_eq_false] at hanswer
    · simp only [pickyLibrary, if_neg hmem]

/-- A hub of the picky library where nothing is registered. -/
def emptyPickyHub : Hub (List Bytes) := ⟨⟨10, 0, 1⟩, ∅, []⟩

/-- A request to watch `D`, which the picky library refuses. -/
def refusedRequest : NodeAddress × Bytes := (⟨10, 0, 2⟩, [15, 10, 68, 1, 2, 3, 4])

/-- The hub once the request has come: the address is in the book. -/
def registeredPickyHub : Hub (List Bytes) :=
  { emptyPickyHub with
    dogeAddressBook := emptyPickyHub.dogeAddressBook.insert [68] ⟨⟨10, 0, 2⟩, Pin.of 1 2 3 4⟩ }

/-- The equivalence for a run of two requests, one of which the library refuses: the
second one changes nothing any more. -/
theorem watchesBook_iff_refused :
    (∀ (before after : List (NodeAddress × Bytes)) (hub : Hub (List Bytes)),
      [refusedRequest, refusedRequest] = before ++ after →
        registerAll pickyLibrary emptyPickyHub before = .ok hub →
          WatchesBook (fun wallet => {address | address ∈ wallet}) hub) ↔
    ∀ (before after : List (NodeAddress × Bytes)) (received : NodeAddress × Bytes)
      (hub : Hub (List Bytes)), [refusedRequest, refusedRequest] = before ++ received :: after →
        registerAll pickyLibrary emptyPickyHub before = .ok hub →
          ¬ WatchRefused pickyLibrary hub received.2 :=
  watchesBook_iff pickyLibrary_lawful rfl
    (Set.eq_empty_of_forall_notMem fun _ => List.not_mem_nil)
    [refusedRequest, refusedRequest]

/-- **The watchlist is not always the book.** A lawful library refuses to watch an
address, which is registered all the same; the next request to register it is refused
before the library is asked again. -/
theorem refused_address_not_watched :
    ¬ ∀ (W : Type) (library : WatchLibrary W) (watched : W → Set Bytes) (start hub : Hub W)
      (requests : List (NodeAddress × Bytes)), library.Lawful watched →
        start.dogeAddressBook = ∅ → watched start.wallet = ∅ →
          registerAll library start requests = .ok hub → WatchesBook watched hub := by
  intro hall
  have hrun : registerAll pickyLibrary emptyPickyHub [refusedRequest, refusedRequest] =
      .ok registeredPickyHub := by rfl
  have hwatches := hall (List Bytes) pickyLibrary (fun wallet => {address | address ∈ wallet})
    emptyPickyHub registeredPickyHub [refusedRequest, refusedRequest] pickyLibrary_lawful rfl
    (Set.eq_empty_of_forall_notMem fun _ => List.not_mem_nil) hrun
  have hmem : ([68] : Bytes) ∈ registeredPickyHub.dogeAddressBook := by decide
  have hwatched : ([68] : Bytes) ∈ ([] : List Bytes) := by
    have hin : ([68] : Bytes) ∈ {address | address ∈ registeredPickyHub.dogeAddressBook} := hmem
    rwa [hwatches] at hin
  exact List.not_mem_nil hwatched

end RadioDoge.Sharp
