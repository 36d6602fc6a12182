/-
# The PIN guards the address book

The address book is a book whose entries are guarded by a secret: an address is a key,
its PIN the secret, and the node that registered it the holder. Registration serves one
request of that kind, or nothing. So an entry is touched only by a payload that names its
address and carries the PIN that is stored for it.
-/

import RadioDoge.Lib.GuardedBook
import RadioDoge.Sharp.Registration

namespace RadioDoge.Sharp

open GuardedBook

/-- What the address book says about each address. -/
def AddressBook.view (book : AddressBook) : Book Bytes Pin NodeAddress := fun address =>
  (book.lookup address).map fun entry => ⟨entry.pin, entry.nodeAddress⟩

theorem AddressBook.view_insert (book : AddressBook) (address : Bytes) (entry : AddressBookEntry) :
    view (book.insert address entry) =
      Function.update (view book) address (some ⟨entry.pin, entry.nodeAddress⟩) := by
  funext other
  by_cases heq : other = address
  · subst heq
    rw [Function.update_self, view, AList.lookup_insert, Option.map_some]
  · rw [Function.update_of_ne heq, view, AList.lookup_insert_ne heq, view]

theorem AddressBook.view_erase (book : AddressBook) (address : Bytes) :
    view (book.erase address) = Function.update (view book) address none := by
  funext other
  by_cases heq : other = address
  · subst heq
    rw [Function.update_self, view, AList.lookup_erase, Option.map_none]
  · rw [Function.update_of_ne heq, view, AList.lookup_erase_ne heq, view]

theorem view_of_lookup {book : AddressBook} {address : Bytes} {entry : AddressBookEntry}
    (h : book.lookup address = some entry) :
    book.view address = some ⟨entry.pin, entry.nodeAddress⟩ := by
  rw [AddressBook.view, h, Option.map_some]

theorem view_of_lookup_none {book : AddressBook} {address : Bytes}
    (h : book.lookup address = none) : book.view address = none := by
  rw [AddressBook.view, h, Option.map_none]

/-- The view shows the whole entry. -/
theorem lookup_eq_of_view_eq {book book' : AddressBook} {address : Bytes}
    (h : book'.view address = book.view address) :
    book'.lookup address = book.lookup address := by
  refine Option.map_injective ?_ h
  rintro ⟨nodeAddress, pin⟩ ⟨nodeAddress', pin'⟩ heq
  cases heq
  rfl

/-- The request of a payload to the book: none if the address is too long or the
operation unknown. -/
def RegistrationRequest.request? (r : RegistrationRequest) : Option (Request Bytes Pin) :=
  if r.address.length ≤ maxAddressLength then
    match RegistrationFunction.ofCode? r.regOpcode with
    | some .updatePin => some (.change r.address r.pin r.newPin)
    | some .addRegistration => some (.add r.address r.pin)
    | some .removeRegistration => some (.remove r.address r.pin)
    | none => none
  else none

/-- The request names the address of the payload and presents its PIN. -/
theorem RegistrationRequest.request?_names {r : RegistrationRequest} {request : Request Bytes Pin}
    (h : r.request? = some request) : request.key = r.address ∧ request.secret = r.pin := by
  rw [request?] at h
  split at h
  · split at h
    · obtain rfl := Option.some.inj h
      exact ⟨rfl, rfl⟩
    · obtain rfl := Option.some.inj h
      exact ⟨rfl, rfl⟩
    · obtain rfl := Option.some.inj h
      exact ⟨rfl, rfl⟩
    · cases h
  · cases h

variable {W : Type} (library : WatchLibrary W)

/-- A request that finds an entry and leaves it. -/
theorem serve_of_revise_eq {sender : NodeAddress} {request : Request Bytes Pin}
    {book : Book Bytes Pin NodeAddress}
    (h : revise sender request (book request.key) = book request.key) :
    serve sender request book = book := by
  rw [serve, h, Function.update_eq_self]

section Operations

open RegistrationRequest

variable (sender : NodeAddress) (address : Bytes) (pin newPin : Pin) (hub : Hub W)

theorem view_addRegistration :
    (addRegistration library sender address pin hub).hub.dogeAddressBook.view =
      serve sender (.add address pin) hub.dogeAddressBook.view := by
  cases hlookup : hub.dogeAddressBook.lookup address with
  | none =>
      rw [addRegistration_of_none library sender pin hub hlookup, serve, Request.key,
        view_of_lookup_none hlookup]
      exact AddressBook.view_insert _ _ _
  | some entry =>
      rw [addRegistration_of_lookup library sender pin hub hlookup, serve_of_revise_eq]
      rw [Request.key, view_of_lookup hlookup]
      rfl

theorem view_removeRegistration :
    (removeRegistration library address pin hub).hub.dogeAddressBook.view =
      serve sender (.remove address pin) hub.dogeAddressBook.view := by
  cases hlookup : hub.dogeAddressBook.lookup address with
  | none =>
      rw [removeRegistration_of_none library pin hub hlookup, serve_of_revise_eq]
      rw [Request.key, view_of_lookup_none hlookup]
      rfl
  | some entry =>
      by_cases hpin : pin = entry.pin
      · subst hpin
        rw [removeRegistration_of_pin library hub hlookup, serve, Request.key,
          view_of_lookup hlookup, revise, if_pos rfl]
        exact AddressBook.view_erase _ _
      · rw [removeRegistration_of_ne library pin hub hlookup hpin, serve_of_revise_eq]
        rw [Request.key, view_of_lookup hlookup]
        exact if_neg fun heq : entry.pin = pin => hpin heq.symm

theorem view_changePin :
    (changePin address pin newPin hub).hub.dogeAddressBook.view =
      serve sender (.change address pin newPin) hub.dogeAddressBook.view := by
  cases hlookup : hub.dogeAddressBook.lookup address with
  | none =>
      rw [changePin_of_none pin newPin hub hlookup, serve_of_revise_eq]
      rw [Request.key, view_of_lookup_none hlookup]
      rfl
  | some entry =>
      by_cases hpin : pin = entry.pin
      · subst hpin
        rw [changePin_of_pin newPin hub hlookup, serve, Request.key, view_of_lookup hlookup,
          revise, if_pos rfl]
        exact AddressBook.view_insert _ _ _
      · rw [changePin_of_ne pin newPin hub hlookup hpin, serve_of_revise_eq]
        rw [Request.key, view_of_lookup hlookup]
        exact if_neg fun heq : entry.pin = pin => hpin heq.symm

end Operations

/-- **Refinement.** A registration serves its request to the book. -/
theorem view_perform (r : RegistrationRequest) (sender : NodeAddress) (hub : Hub W) :
    (r.perform library sender hub).hub.dogeAddressBook.view =
      match r.request? with
      | some request => serve sender request hub.dogeAddressBook.view
      | none => hub.dogeAddressBook.view := by
  rw [RegistrationRequest.perform, RegistrationRequest.request?]
  by_cases hshort : r.address.length ≤ maxAddressLength
  · rw [if_pos hshort, if_pos hshort]
    cases RegistrationFunction.ofCode? r.regOpcode with
    | none => rfl
    | some function =>
        cases function with
        | addRegistration => exact view_addRegistration library sender r.address r.pin hub
        | removeRegistration => exact view_removeRegistration library sender r.address r.pin hub
        | updatePin => exact view_changePin sender r.address r.pin r.newPin hub
  · rw [if_neg hshort, if_neg hshort]

/-! ## Runs -/

/-- The address field of a registration payload, and the PIN field behind it. -/
def RegistrationNames (payload address : Bytes) (pin : Pin) : Prop :=
  ∃ (header : UInt8) (r : RegistrationRequest),
    payload = r.payload header ∧ r.address = address ∧ r.pin = pin

/-- Registration payloads one after the other, each with its sender. -/
def registerAll (hub : Hub W) : List (NodeAddress × Bytes) → Throws (Hub W)
  | [] => pure hub
  | (sender, payload) :: rest => do
      let result ← registerDogeAddress library sender payload hub
      registerAll result.1 rest

/-- What one payload does to the book: it serves at most one request, which names the
address and presents the PIN of the payload. -/
theorem view_registerDogeAddress {sender : NodeAddress} {payload : Bytes} {hub hub' : Hub W}
    {replies : List Bytes}
    (h : registerDogeAddress library sender payload hub = .ok (hub', replies)) :
    ∃ requests : List (NodeAddress × Request Bytes Pin),
      hub'.dogeAddressBook.view = serveAll hub.dogeAddressBook.view requests ∧
        ∀ sent ∈ requests, RegistrationNames payload sent.2.key sent.2.secret ∧
          (payload[1]? = some RegistrationFunction.addRegistration.code → sent.2.IsAdd) := by
  obtain ⟨header, r, rfl, rfl⟩ := registerDogeAddress_eq_ok library h
  rw [view_perform]
  cases hrequest : r.request? with
  | none => exact ⟨[], rfl, fun sent hmem => absurd hmem List.not_mem_nil⟩
  | some request =>
      obtain ⟨hkey, hsecret⟩ := RegistrationRequest.request?_names hrequest
      refine ⟨[(sender, request)], rfl, ?_⟩
      intro sent hmem
      obtain rfl := List.mem_singleton.mp hmem
      refine ⟨⟨header, r, rfl, hkey.symm, hsecret.symm⟩, ?_⟩
      intro hadd
      have hopcode : r.regOpcode = RegistrationFunction.addRegistration.code :=
        Option.some.inj hadd
      rw [RegistrationRequest.request?, hopcode] at hrequest
      split at hrequest
      · obtain rfl := Option.some.inj hrequest
        trivial
      · cases hrequest

/-- What a run does to the book: it serves requests that its payloads carry. -/
theorem view_registerAll {requests : List (NodeAddress × Bytes)} :
    ∀ {hub hub' : Hub W}, registerAll library hub requests = .ok hub' →
      ∃ served : List (NodeAddress × Request Bytes Pin),
        hub'.dogeAddressBook.view = serveAll hub.dogeAddressBook.view served ∧
          ∀ sent ∈ served, ∃ received ∈ requests,
            RegistrationNames received.2 sent.2.key sent.2.secret := by
  induction requests with
  | nil =>
      intro hub hub' h
      obtain rfl := Except.ok.inj h
      exact ⟨[], rfl, fun sent hmem => absurd hmem List.not_mem_nil⟩
  | cons received rest ih =>
      intro hub hub' h
      rw [registerAll] at h
      cases hstep : registerDogeAddress library received.1 received.2 hub with
      | error e =>
          rw [hstep] at h
          cases h
      | ok result =>
          rw [hstep, bind_ok] at h
          obtain ⟨first, hfirst, hnames⟩ := view_registerDogeAddress library hstep
          obtain ⟨later, hlater, hserved⟩ := ih h
          refine ⟨first ++ later, ?_, ?_⟩
          · rw [serveAll_append, ← hfirst, hlater]
          · intro sent hmem
            rcases List.mem_append.mp hmem with hmem | hmem
            · exact ⟨received, List.mem_cons_self, (hnames sent hmem).1⟩
            · obtain ⟨other, hother, hname⟩ := hserved sent hmem
              exact ⟨other, List.mem_cons_of_mem received hother, hname⟩

/-- An entry outlives requests none of which names its address and presents its PIN. -/
theorem lookup_of_served {hub hub' : Hub W} {address : Bytes} {entry : AddressBookEntry}
    {served : List (NodeAddress × Request Bytes Pin)}
    (hserved : hub'.dogeAddressBook.view = serveAll hub.dogeAddressBook.view served)
    (hentry : hub.dogeAddressBook.lookup address = some entry)
    (hpin : ∀ sent ∈ served, ¬ (sent.2.key = address ∧ sent.2.secret = entry.pin)) :
    hub'.dogeAddressBook.lookup address = some entry := by
  rw [← hentry]
  apply lookup_eq_of_view_eq
  rw [hserved, view_of_lookup hentry]
  exact serveAll_of_unauthorized (view_of_lookup hentry) hpin

/-- A registered address keeps its entry through every run in which no payload names it
and carries its PIN. -/
theorem entry_outlives_run {requests : List (NodeAddress × Bytes)} {hub hub' : Hub W}
    {address : Bytes} {entry : AddressBookEntry}
    (hrun : registerAll library hub requests = .ok hub')
    (hentry : hub.dogeAddressBook.lookup address = some entry)
    (hpin : ∀ received ∈ requests, ¬ RegistrationNames received.2 address entry.pin) :
    hub'.dogeAddressBook.lookup address = some entry := by
  obtain ⟨served, hserved, hnames⟩ := view_registerAll library hrun
  apply lookup_of_served hserved hentry
  rintro sent hmem ⟨rfl, hsecret⟩
  obtain ⟨received, hreceived, hname⟩ := hnames sent hmem
  rw [hsecret] at hname
  exact hpin received hreceived hname

/-- **The PIN guards the book.** In every run of registration payloads, whoever sends
them: an entry changes or goes only on a payload with its address and the PIN that is
stored for it at that moment, adding an address never alters an entry, and a payload
leaves the entries of all addresses but its own. An entry that a run has changed or
taken out was named, with its PIN, by a payload of the run. -/
theorem address_book_guarded {start hub hub' : Hub W} {requests : List (NodeAddress × Bytes)}
    {sender : NodeAddress} {payload : Bytes} {replies : List Bytes}
    (hrun : registerAll library start requests = .ok hub)
    (hstep : registerDogeAddress library sender payload hub = .ok (hub', replies)) :
    (∀ (address : Bytes) (entry : AddressBookEntry),
      hub.dogeAddressBook.lookup address = some entry →
        hub'.dogeAddressBook.lookup address ≠ some entry →
          RegistrationNames payload address entry.pin) ∧
    (payload[1]? = some RegistrationFunction.addRegistration.code →
      ∀ (address : Bytes) (entry : AddressBookEntry),
        hub.dogeAddressBook.lookup address = some entry →
          hub'.dogeAddressBook.lookup address = some entry) ∧
    (∀ address : Bytes, (∀ pin : Pin, ¬ RegistrationNames payload address pin) →
      hub'.dogeAddressBook.lookup address = hub.dogeAddressBook.lookup address) ∧
    ∀ (address : Bytes) (entry : AddressBookEntry),
      start.dogeAddressBook.lookup address = some entry →
        hub.dogeAddressBook.lookup address ≠ some entry →
          ∃ received ∈ requests, RegistrationNames received.2 address entry.pin := by
  obtain ⟨served, hserved, hnames⟩ := view_registerDogeAddress library hstep
  refine ⟨?_, ?_, ?_, ?_⟩
  · intro address entry hentry hchanged
    by_contra hunnamed
    apply hchanged
    apply lookup_of_served hserved hentry
    rintro sent hmem ⟨rfl, hsecret⟩
    have hname := (hnames sent hmem).1
    rw [hsecret] at hname
    exact hunnamed hname
  · intro hadd address entry hentry
    rw [← hentry]
    apply lookup_eq_of_view_eq
    rw [hserved, view_of_lookup hentry]
    exact serveAll_of_isAdd (view_of_lookup hentry) fun sent hmem => (hnames sent hmem).2 hadd
  · intro address hunnamed
    apply lookup_eq_of_view_eq
    rw [hserved]
    apply serveAll_of_ne
    rintro sent hmem rfl
    exact hunnamed _ (hnames sent hmem).1
  · intro address entry hentry hchanged
    by_contra hunnamed
    apply hchanged
    apply entry_outlives_run library hrun hentry
    intro received hmem hname
    exact hunnamed ⟨received, hmem, hname⟩

/-- A library that watches everything. -/
def obligingLibrary : WatchLibrary Unit where
  registerWatchAddress := fun _ _ => (true, ())
  unregisterWatchAddress := fun _ _ => (true, ())

/-- A hub where nothing is registered. -/
def emptyHub : Hub Unit := ⟨⟨10, 0, 1⟩, ∅, ()⟩

/-- The hub when node 10.0.2 has registered `D` with the PIN 1234. -/
def oneAddressHub : Hub Unit :=
  { emptyHub with
    dogeAddressBook := emptyHub.dogeAddressBook.insert [68] ⟨⟨10, 0, 2⟩, Pin.of 1 2 3 4⟩ }

/-- The address is registered and then removed, by a payload that carries its PIN. -/
theorem address_book_guarded_removal :
    registerAll obligingLibrary emptyHub [(⟨10, 0, 2⟩, [15, 10, 68, 1, 2, 3, 4])] =
        .ok oneAddressHub ∧
      registerDogeAddress obligingLibrary ⟨10, 0, 3⟩ [15, 20, 68, 1, 2, 3, 4] oneAddressHub =
        .ok (emptyHub, [sendGenericDogeResponse ⟨10, 0, 1⟩ ⟨10, 0, 3⟩ true .registration
          .success]) ∧
      RegistrationNames [15, 20, 68, 1, 2, 3, 4] [68] (Pin.of 1 2 3 4) := by
  have hrun : registerAll obligingLibrary emptyHub [(⟨10, 0, 2⟩, [15, 10, 68, 1, 2, 3, 4])] =
      .ok oneAddressHub := by rfl
  have hstep : registerDogeAddress obligingLibrary ⟨10, 0, 3⟩ [15, 20, 68, 1, 2, 3, 4]
      oneAddressHub = .ok (emptyHub, [sendGenericDogeResponse ⟨10, 0, 1⟩ ⟨10, 0, 3⟩ true
        .registration .success]) := by rfl
  have hguard := (address_book_guarded obligingLibrary hrun hstep).1
  exact ⟨hrun, hstep, hguard [68] ⟨⟨10, 0, 2⟩, Pin.of 1 2 3 4⟩ (by rfl) (by decide)⟩

end RadioDoge.Sharp
