/-
# A book whose entries are guarded by a secret

A book keeps for every key at most one entry: the secret it was entered with and who
entered it. Anyone may enter a key that is free; to take an entry out, or to change
its secret, the request has to name the key and the secret that is stored. What this
guards against: no other request ever moves an entry.
-/

import Mathlib.Logic.Function.Basic

universe u v w

namespace GuardedBook

/-- An entry of the book. -/
structure Entry (σ : Type v) (η : Type w) where
  secret : σ
  holder : η

/-- What is asked of a book. -/
inductive Request (κ : Type u) (σ : Type v)
  | add (key : κ) (secret : σ)
  | remove (key : κ) (secret : σ)
  | change (key : κ) (secret new : σ)

namespace Request

variable {κ : Type u} {σ : Type v}

/-- The key a request names. -/
def key : Request κ σ → κ
  | .add key _ => key
  | .remove key _ => key
  | .change key _ _ => key

/-- The secret a request presents. -/
def secret : Request κ σ → σ
  | .add _ secret => secret
  | .remove _ secret => secret
  | .change _ secret _ => secret

/-- The request asks for a new entry. -/
def IsAdd : Request κ σ → Prop
  | .add _ _ => True
  | _ => False

end Request

variable {κ : Type u} {σ : Type v} {η : Type w} [DecidableEq κ] [DecidableEq σ]

/-- A book. -/
abbrev Book (κ : Type u) (σ : Type v) (η : Type w) := κ → Option (Entry σ η)

/-- What a request makes of the entry under its key. -/
def revise (sender : η) : Request κ σ → Option (Entry σ η) → Option (Entry σ η)
  | .add _ secret, none => some ⟨secret, sender⟩
  | .remove _ secret, some entry => if entry.secret = secret then none else some entry
  | .change _ secret new, some entry =>
      if entry.secret = secret then some { entry with secret := new } else some entry
  | _, entry => entry

/-- A request is served: only the entry under its key is touched. -/
def serve (sender : η) (request : Request κ σ) (book : Book κ σ η) : Book κ σ η :=
  Function.update book request.key (revise sender request (book request.key))

variable {sender : η} {request : Request κ σ} {book : Book κ σ η}

/-- Entries under other keys stay. -/
theorem serve_of_ne {key : κ} (hkey : request.key ≠ key) :
    serve sender request book key = book key :=
  Function.update_of_ne (Ne.symm hkey) _ _

theorem serve_key : serve sender request book request.key =
    revise sender request (book request.key) :=
  Function.update_self _ _ _

/-- A new entry never replaces one. -/
theorem serve_add {key : κ} {entry : Entry σ η} (hadd : request.IsAdd)
    (hentry : book key = some entry) : serve sender request book key = some entry := by
  by_cases hkey : request.key = key
  · subst hkey
    rw [serve_key, hentry]
    cases request with
    | add key secret => rfl
    | remove key secret => exact hadd.elim
    | change key secret new => exact hadd.elim
  · rw [serve_of_ne hkey, hentry]

/-- **The guard.** An entry is left alone by every request that does not name its key
and present its secret. -/
theorem serve_of_unauthorized {key : κ} {entry : Entry σ η} (hentry : book key = some entry)
    (hrequest : ¬ (request.key = key ∧ request.secret = entry.secret)) :
    serve sender request book key = some entry := by
  by_cases hkey : request.key = key
  · subst hkey
    have hsecret : entry.secret ≠ request.secret := fun heq => hrequest ⟨rfl, heq.symm⟩
    rw [serve_key, hentry]
    cases request with
    | add key secret => rfl
    | remove key secret => exact if_neg hsecret
    | change key secret new => exact if_neg hsecret
  · rw [serve_of_ne hkey, hentry]

/-- The request is let through: the key is free for a new entry, or the secret is the one that is
stored. -/
def Granted (request : Request κ σ) (book : Book κ σ η) : Prop :=
  match request with
  | .add key _ => book key = none
  | .remove key secret => ∃ entry, book key = some entry ∧ entry.secret = secret
  | .change key secret _ => ∃ entry, book key = some entry ∧ entry.secret = secret

/-- The change that the request asks for has been made, and no other. -/
def Made (sender : η) (request : Request κ σ) (before after : Book κ σ η) : Prop :=
  Granted request before ∧ after = serve sender request before

/-! ## Two keys for one thing -/

/-- Whenever the first key is entered, so is the second. -/
def Follows (first second : κ) (book : Book κ σ η) : Prop :=
  (book first).isSome → (book second).isSome

/-- The request enters the first key while the second is free, or takes the second out while the
first is entered. -/
def Separates (first second : κ) (request : Request κ σ) (book : Book κ σ η) : Prop :=
  (∃ secret, request = .add first secret ∧ book first = none ∧ book second = none) ∨
    ∃ secret, request = .remove second secret ∧ Granted request book ∧ (book first).isSome

/-- What a request that is not the removal of an entry leaves under a key. -/
theorem isSome_serve_of_isSome {key : κ} (hentry : (book key).isSome)
    (hremove : ∀ secret, request = .remove key secret → ¬ Granted request book) :
    (serve sender request book key).isSome := by
  rcases Option.isSome_iff_exists.mp hentry with ⟨entry, hentry⟩
  by_cases hkey : request.key = key
  · subst hkey
    rw [serve_key, hentry]
    cases request with
    | add key secret => rfl
    | remove key secret =>
        have hother : entry.secret ≠ secret := fun hsecret =>
          hremove secret rfl ⟨entry, hentry, hsecret⟩
        rw [revise, if_neg hother]
        rfl
    | change key secret new =>
        rw [revise]
        split
        · rfl
        · rfl
  · rw [serve_of_ne hkey, hentry]
    rfl

/-- What a request that does not enter a key leaves of one that is free. -/
theorem serve_of_none {key : κ} (hfree : book key = none)
    (hadd : ∀ secret, request ≠ .add key secret) : serve sender request book key = none := by
  by_cases hkey : request.key = key
  · subst hkey
    rw [serve_key, hfree]
    cases request with
    | add key secret => exact absurd rfl (hadd secret)
    | remove key secret => rfl
    | change key secret new => rfl
  · rw [serve_of_ne hkey, hfree]

/-- **Two keys together.** The second key still follows the first exactly if the request does not
separate them. -/
theorem follows_serve_iff {first second : κ} (hne : first ≠ second)
    (hfollows : Follows first second book) :
    Follows first second (serve sender request book) ↔ ¬ Separates first second request book := by
  apply Iff.intro
  · rintro hafter (⟨secret, rfl, hfirst, hsecond⟩ | ⟨secret, rfl, hgranted, hfirst⟩)
    · have hkey : (Request.add first secret).key ≠ second := hne
      have hentered : serve sender (.add first secret) book first = some ⟨secret, sender⟩ := by
        rw [serve, Request.key, Function.update_self, hfirst, revise]
      have hfree : serve sender (.add first secret) book second = none := by
        rw [serve_of_ne hkey, hsecond]
      have hsome := hafter (Option.isSome_iff_exists.mpr ⟨_, hentered⟩)
      rw [hfree] at hsome
      cases hsome
    · have hkey : (Request.remove second secret).key ≠ first := Ne.symm hne
      have hstays : (serve sender (.remove second secret) book first).isSome := by
        rw [serve_of_ne hkey]
        exact hfirst
      rcases hgranted with ⟨entry, hentry, hsecret⟩
      have hgone : serve sender (.remove second secret) book second = none := by
        rw [serve, Request.key, Function.update_self, hentry, revise, if_pos hsecret]
      have hsome := hafter hstays
      rw [hgone] at hsome
      cases hsome
  · intro hkeeps hentered
    by_cases hfirst : (book first).isSome
    · apply isSome_serve_of_isSome (hfollows hfirst)
      intro secret hremove hgranted
      exact hkeeps (.inr ⟨secret, hremove, hgranted, hfirst⟩)
    · have hnone : book first = none := Option.not_isSome_iff_eq_none.mp hfirst
      by_cases hadd : ∃ secret, request = .add first secret
      · rcases hadd with ⟨secret, rfl⟩
        have hsecond : (book second).isSome := by
          by_contra hfree
          exact hkeeps (.inl ⟨secret, rfl, hnone, Option.not_isSome_iff_eq_none.mp hfree⟩)
        have hkey : (Request.add first secret).key ≠ second := hne
        rw [serve_of_ne hkey]
        exact hsecond
      · rw [serve_of_none hnone fun secret hsame => hadd ⟨secret, hsame⟩] at hentered
        cases hentered

/-! ## Runs -/

/-- Requests served one after the other, each with its sender. -/
def serveAll (book : Book κ σ η) : List (η × Request κ σ) → Book κ σ η
  | [] => book
  | (sender, request) :: rest => serveAll (serve sender request book) rest

theorem serveAll_append (first second : List (η × Request κ σ)) (book : Book κ σ η) :
    serveAll book (first ++ second) = serveAll (serveAll book first) second := by
  induction first generalizing book with
  | nil => rfl
  | cons request rest ih => exact ih _

/-- What every served request preserves is preserved by the run. -/
theorem serveAll_invariant (invariant : Book κ σ η → Prop) {requests : List (η × Request κ σ)}
    (hstart : invariant book)
    (hserve : ∀ sent ∈ requests, ∀ between : Book κ σ η, invariant between →
      invariant (serve sent.1 sent.2 between)) :
    invariant (serveAll book requests) := by
  induction requests generalizing book with
  | nil => exact hstart
  | cons sent rest ih =>
      have hfirst := hserve sent List.mem_cons_self book hstart
      exact ih hfirst fun other hmem => hserve other (List.mem_cons_of_mem sent hmem)

/-- An entry outlives every run in which nobody names its key and presents its secret. -/
theorem serveAll_of_unauthorized {key : κ} {entry : Entry σ η} {requests : List (η × Request κ σ)}
    (hentry : book key = some entry)
    (hrequests : ∀ sent ∈ requests, ¬ (sent.2.key = key ∧ sent.2.secret = entry.secret)) :
    serveAll book requests key = some entry :=
  serveAll_invariant (fun between => between key = some entry) hentry
    fun sent hmem _ hbetween => serve_of_unauthorized hbetween (hrequests sent hmem)

/-- An entry outlives every run that only adds. -/
theorem serveAll_of_isAdd {key : κ} {entry : Entry σ η} {requests : List (η × Request κ σ)}
    (hentry : book key = some entry) (hrequests : ∀ sent ∈ requests, sent.2.IsAdd) :
    serveAll book requests key = some entry :=
  serveAll_invariant (fun between => between key = some entry) hentry
    fun sent hmem _ hbetween => serve_add (hrequests sent hmem) hbetween

/-- A key that is not named keeps what is under it. -/
theorem serveAll_of_ne {key : κ} {requests : List (η × Request κ σ)}
    (hrequests : ∀ sent ∈ requests, sent.2.key ≠ key) :
    serveAll book requests key = book key :=
  serveAll_invariant (fun between => between key = book key) rfl
    fun sent hmem between hbetween => by
      rw [serve_of_ne (hrequests sent hmem), hbetween]

end GuardedBook
