/-
# What the hub answers to a registration

The answer is a success or a failure with a response code. The two are kept in two variables,
which `RegisterDogeAddress` sets in each of its branches. An operation byte that it does not know
meets none of them, so that the answer is a failure with the code `Success`. `tellsTruth_iff`
says that this is the only payload that is answered wrongly.
-/

import RadioDoge.Sharp.AddressGuard

namespace RadioDoge.Sharp

open GuardedBook

variable {W : Type} (library : WatchLibrary W)

/-! ## A truthful answer -/

/-- What is reported of a registration is what it has done to the book. -/
structure Registered.Truthful (sender : NodeAddress) (r : RegistrationRequest) (hub : Hub W)
    (result : Registered W) : Prop where
  success_iff : result.operationSuccess = true ↔ ∃ request ∈ r.request?,
    Made sender request hub.dogeAddressBook.view result.hub.dogeAddressBook.view
  code_ne : result.operationSuccess = false → result.responseCode ≠ .success
  unchanged : result.operationSuccess = false →
    result.hub.dogeAddressBook = hub.dogeAddressBook

/-- The hub answers the payload with one generic response, and what it says is true. -/
def TellsTruth (sender : NodeAddress) (payload : Bytes) (hub : Hub W) : Prop :=
  ∃ (header : UInt8) (r : RegistrationRequest) (result : Registered W),
    payload = r.payload header ∧ result.Truthful sender r hub ∧
      registerDogeAddress library sender payload hub =
        .ok (result.hub, [sendGenericDogeResponse hub.localAddress sender
          result.operationSuccess .registration result.responseCode])

/-- The response shows the success and the code. -/
theorem sendGenericDogeResponse_inj {localAddress destNode : NodeAddress}
    {success success' : Bool} {code code' : DogeResponseCode}
    (h : sendGenericDogeResponse localAddress destNode success .registration code =
      sendGenericDogeResponse localAddress destNode success' .registration code') :
    success = success' ∧ code = code' := by
  have hlayout : ∀ (s : Bool) (c : DogeResponseCode),
      sendGenericDogeResponse localAddress destNode s .registration c =
        (createPacket destNode localAddress [(if s then DogeCommandType.dogeCommandSuccess
          else .dogeCommandFailure).code, DogeCommandType.registration.code, c.code]) :=
    fun s c => rfl
  rw [hlayout, hlayout] at h
  rcases List.append_inj' h rfl with ⟨-, hpayload⟩
  injection hpayload with hheader hrest
  injection hrest with _ hrest
  injection hrest with hcode _
  apply And.intro
  · cases success
    all_goals cases success'
    all_goals first | rfl | exact absurd hheader (by decide)
  · cases code
    all_goals cases code'
    all_goals first | rfl | exact absurd hcode (by decide)

/-! ## The operations -/

section Operations

open RegistrationRequest

variable (sender : NodeAddress) {r : RegistrationRequest} (hub : Hub W)

/-- An operation that makes its change and says so. -/
theorem truthful_of_granted {result : Registered W} {request : Request Bytes Pin}
    (hrequest : r.request? = some request) (hgranted : Granted request hub.dogeAddressBook.view)
    (hview : result.hub.dogeAddressBook.view = serve sender request hub.dogeAddressBook.view)
    (hsuccess : result.operationSuccess = true) : result.Truthful sender r hub where
  success_iff := iff_of_true hsuccess ⟨request, hrequest, hgranted, hview⟩
  code_ne := fun hfailure => absurd hsuccess (by rw [hfailure]; decide)
  unchanged := fun hfailure => absurd hsuccess (by rw [hfailure]; decide)

/-- An operation that refuses its request with a code. -/
theorem truthful_of_refused {code : DogeResponseCode}
    (hrefused : ∀ request ∈ r.request?, ¬ Granted request hub.dogeAddressBook.view)
    (hcode : code ≠ .success) : (Registered.mk hub false code).Truthful sender r hub where
  success_iff := iff_of_false Bool.false_ne_true fun ⟨request, hrequest, hmade⟩ =>
    hrefused request hrequest hmade.1
  code_ne := fun _ => hcode
  unchanged := fun _ => rfl

/-- A single request that is not granted. -/
theorem refused_of_request {request : Request Bytes Pin} (hrequest : r.request? = some request)
    (hrefused : ¬ Granted request hub.dogeAddressBook.view) :
    ∀ other ∈ r.request?, ¬ Granted other hub.dogeAddressBook.view := by
  intro other hother
  rw [hrequest] at hother
  rcases Option.some.inj hother with rfl
  exact hrefused

/-- Adding an address. -/
theorem truthful_addRegistration (hrequest : r.request? = some (.add r.address r.pin)) :
    (addRegistration library sender r.address r.pin hub).Truthful sender r hub := by
  cases hlookup : hub.dogeAddressBook.lookup r.address with
  | none =>
      apply truthful_of_granted sender hub hrequest (view_of_lookup_none hlookup)
      · exact view_addRegistration library sender r.address r.pin hub
      · rw [addRegistration, if_neg (AList.lookup_eq_none.mp hlookup)]
  | some entry =>
      rw [addRegistration_of_lookup library sender r.pin hub hlookup]
      apply truthful_of_refused sender hub (refused_of_request hub hrequest ?_) (by decide)
      intro hfree
      cases (view_of_lookup hlookup).symm.trans hfree

/-- An operation that makes its change under the stored PIN, and refuses it otherwise. -/
theorem truthful_of_pin {result : Registered W} {request : Request Bytes Pin}
    (hrequest : r.request? = some request)
    (hguarded : Granted request hub.dogeAddressBook.view ↔
      ∃ stored, hub.dogeAddressBook.view r.address = some stored ∧ stored.secret = r.pin)
    (hview : result.hub.dogeAddressBook.view = serve sender request hub.dogeAddressBook.view)
    (hnone : hub.dogeAddressBook.lookup r.address = none →
      result = ⟨hub, false, .notRegistered⟩)
    (hsome : ∀ entry, hub.dogeAddressBook.lookup r.address = some entry →
      if r.pin = entry.pin then result.operationSuccess = true
      else result = ⟨hub, false, .invalidPin⟩) :
    result.Truthful sender r hub := by
  cases hlookup : hub.dogeAddressBook.lookup r.address with
  | none =>
      rw [hnone hlookup]
      apply truthful_of_refused sender hub (refused_of_request hub hrequest ?_) (by decide)
      rw [hguarded, view_of_lookup_none hlookup]
      rintro ⟨stored, hstored, -⟩
      cases hstored
  | some entry =>
      have hresult := hsome entry hlookup
      rw [view_of_lookup hlookup] at hguarded
      by_cases hpin : r.pin = entry.pin
      · rw [if_pos hpin] at hresult
        exact truthful_of_granted sender hub hrequest
          (hguarded.mpr ⟨_, rfl, hpin.symm⟩) hview hresult
      · rw [if_neg hpin] at hresult
        rw [hresult]
        apply truthful_of_refused sender hub (refused_of_request hub hrequest ?_) (by decide)
        rw [hguarded]
        rintro ⟨stored, hstored, hsame⟩
        rcases Option.some.inj hstored with rfl
        exact hpin hsame.symm

/-- Removing an address. -/
theorem truthful_removeRegistration (hrequest : r.request? = some (.remove r.address r.pin)) :
    (removeRegistration library r.address r.pin hub).Truthful sender r hub := by
  apply truthful_of_pin sender hub hrequest Iff.rfl
  · exact view_removeRegistration library sender r.address r.pin hub
  · exact removeRegistration_of_none library r.pin hub
  · intro entry hlookup
    split
    · rename_i hpin
      have hmatch := (entry.doesPinMatch_iff r.pin).mpr hpin
      simp only [removeRegistration, hlookup, hmatch, if_true]
    · rename_i hpin
      exact removeRegistration_of_ne library r.pin hub hlookup hpin

/-- Changing a PIN. -/
theorem truthful_changePin (hrequest : r.request? = some (.change r.address r.pin r.newPin)) :
    (changePin r.address r.pin r.newPin hub).Truthful sender r hub := by
  apply truthful_of_pin sender hub hrequest Iff.rfl
  · exact view_changePin sender r.address r.pin r.newPin hub
  · exact changePin_of_none r.pin r.newPin hub
  · intro entry hlookup
    split
    · rename_i hpin
      rw [hpin]
      simp only [changePin, hlookup, entry.resetPin_self r.newPin, if_true]
    · rename_i hpin
      exact changePin_of_ne r.pin r.newPin hub hlookup hpin

/-- **Every operation.** What is reported is true, unless the operation is unknown and the
address short enough. -/
theorem truthful_perform_iff (r : RegistrationRequest) :
    (r.perform library sender hub).Truthful sender r hub ↔
      (RegistrationFunction.ofCode? r.regOpcode).isSome ∨
        maxAddressLength < r.address.length := by
  by_cases hshort : r.address.length ≤ maxAddressLength
  · rw [or_iff_left (Nat.not_lt.mpr hshort)]
    have hperform : r.perform library sender hub = _ := if_pos hshort
    have hrequest : r.request? = _ := if_pos hshort
    rw [hperform]
    cases hfunction : RegistrationFunction.ofCode? r.regOpcode with
    | none => exact iff_of_false (fun htrue => htrue.code_ne rfl rfl) (by decide)
    | some function =>
        rw [hfunction] at hrequest
        refine iff_of_true ?_ rfl
        cases function with
        | addRegistration => exact truthful_addRegistration library sender hub hrequest
        | removeRegistration => exact truthful_removeRegistration library sender hub hrequest
        | updatePin => exact truthful_changePin sender hub hrequest
  · refine iff_of_true ?_ (.inr (Nat.lt_of_not_le hshort))
    have hperform : r.perform library sender hub = ⟨hub, false, .invalidAddress⟩ := if_neg hshort
    have hrequest : r.request? = none := if_neg hshort
    rw [hperform]
    apply truthful_of_refused sender hub _ (by decide)
    intro request hmem
    rw [hrequest] at hmem
    cases hmem

end Operations

/-! ## Payloads -/

/-- A payload of ten bytes has room for its fields. -/
theorem registrationFits_of_length {payload : Bytes} (hlength : 10 ≤ payload.length) :
    RegistrationFits payload := by
  match payload with
  | _ :: regOpcode :: rest =>
      rw [List.length_cons, List.length_cons] at hlength
      rw [RegistrationFits]
      split
      · simp only [pinLength]
        omega
      · simp only [pinLength]
        omega

/-- The operation and the length of the address, as they stand in the payload. -/
theorem known_or_long_iff (r : RegistrationRequest) (header : UInt8) :
    (RegistrationFunction.ofCode? r.regOpcode).isSome ∨ maxAddressLength < r.address.length ↔
      (∃ function : RegistrationFunction, (r.payload header)[1]? = some function.code) ∨
        maxAddressLength + pinLength + 2 < (r.payload header).length := by
  have hopcode : (r.payload header)[1]? = some r.regOpcode := rfl
  rw [hopcode]
  cases hfunction : RegistrationFunction.ofCode? r.regOpcode with
  | some function =>
      exact iff_of_true (.inl rfl)
        (.inl ⟨function, congrArg some (RegistrationFunction.code_of_ofCode? hfunction).symm⟩)
  | none =>
      have hunknown : ¬ ∃ function : RegistrationFunction,
          some r.regOpcode = some function.code := by
        rintro ⟨function, hcode⟩
        rw [Option.some.inj hcode, RegistrationFunction.ofCode?_code] at hfunction
        cases hfunction
      have hother : r.regOpcode ≠ RegistrationFunction.updatePin.code :=
        fun hcode => hunknown ⟨.updatePin, congrArg some hcode⟩
      rw [or_iff_right hunknown, or_iff_right (by decide), r.payload_of_ne header hother]
      simp only [List.length_cons, List.length_append, Vector.length_toList]
      omega

/-- **The answers of the hub.** Whatever the book holds, a registration payload of at least ten
bytes is answered truthfully exactly if its operation is known or its address is too long. -/
theorem tellsTruth_iff (sender : NodeAddress) {payload : Bytes} (hlength : 10 ≤ payload.length)
    (hub : Hub W) :
    TellsTruth library sender payload hub ↔
      (∃ function : RegistrationFunction, payload[1]? = some function.code) ∨
        maxAddressLength + pinLength + 2 < payload.length := by
  apply Iff.intro
  · rintro ⟨header, r, result, rfl, htrue, hanswer⟩
    rw [← known_or_long_iff, ← truthful_perform_iff library sender hub]
    rw [registerDogeAddress_payload] at hanswer
    rcases Prod.mk.inj (Except.ok.inj hanswer) with ⟨hhub, hreplies⟩
    rcases sendGenericDogeResponse_inj (List.cons.inj hreplies).1 with ⟨hsuccess, hcode⟩
    have hresult : r.perform library sender hub = result := by
      cases result
      rw [Registered.mk.injEq]
      exact ⟨hhub, hsuccess, hcode⟩
    rw [hresult]
    exact htrue
  · intro hknown
    rcases exists_request_of_fits (registrationFits_of_length hlength) with ⟨header, r, rfl⟩
    rw [← known_or_long_iff, ← truthful_perform_iff library sender hub] at hknown
    exact ⟨header, r, _, rfl, hknown, registerDogeAddress_payload library sender r header hub⟩

/-- Removing an address of four bytes under its PIN. -/
theorem tellsTruth_iff_removal :
    TellsTruth obligingLibrary ⟨10, 0, 2⟩ [15, 20, 68, 69, 70, 71, 1, 2, 3, 4] oneAddressHub ↔
      (∃ function : RegistrationFunction,
        ([15, 20, 68, 69, 70, 71, 1, 2, 3, 4] : Bytes)[1]? = some function.code) ∨
        maxAddressLength + pinLength + 2 < 10 :=
  tellsTruth_iff obligingLibrary ⟨10, 0, 2⟩ (by decide) oneAddressHub

/-- The operation 40 is answered with a failure whose code is `Success`. -/
theorem unknown_operation_fails_with_success :
    registerDogeAddress obligingLibrary ⟨10, 0, 2⟩ [15, 40, 68, 69, 70, 71, 1, 2, 3, 4] emptyHub =
        .ok (emptyHub, [sendGenericDogeResponse ⟨10, 0, 1⟩ ⟨10, 0, 2⟩ false .registration
          .success]) ∧
      ¬ TellsTruth obligingLibrary ⟨10, 0, 2⟩ [15, 40, 68, 69, 70, 71, 1, 2, 3, 4] emptyHub := by
  have hanswer : registerDogeAddress obligingLibrary ⟨10, 0, 2⟩
      [15, 40, 68, 69, 70, 71, 1, 2, 3, 4] emptyHub =
        .ok (emptyHub, [sendGenericDogeResponse ⟨10, 0, 1⟩ ⟨10, 0, 2⟩ false .registration
          .success]) := by rfl
  refine ⟨hanswer, ?_⟩
  rintro ⟨header, r, result, -, htrue, hother⟩
  rw [hanswer] at hother
  rcases Prod.mk.inj (Except.ok.inj hother) with ⟨-, hreplies⟩
  rcases sendGenericDogeResponse_inj (List.cons.inj hreplies).1 with ⟨hfailure, hsuccess⟩
  exact htrue.code_ne hfailure.symm hsuccess.symm

end RadioDoge.Sharp
