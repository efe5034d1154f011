import LdbBackend.Concurrent.Profile

/-!
# When payments do not revert a profile

A delivery saves the whole row that it read several statements earlier, and so reverts what an update has
set in between (`profile_reverted`). If every delivery that saves the customer has read the profile that
is stored, the profile holds the last values. Updates are started one after another: the one that runs is
the last of them, and what it has read of the profile is what is stored (`Profiled`).
-/

namespace LdbBackend

open Fixed Effects Table CustomerService

def Call.paysOrUpdates : Call → Bool
  | .receive _ _ | .update _ _ _ _ => true
  | _ => false

/-- What call `i` read of the profile is what is stored. -/
def ReadProfile (s : Tables) (tr : Trace) (i : Nat) (id : UUID) : Prop :=
  ∀ row ∈ s.customers, row.id = id → ∀ c ∈ lastRead tr i, c.profile = row.load.profile

/-- Deliveries and updates, where a delivery that saves the customer has read its stored profile. -/
def profiling (id : UUID) : Assumption Op Res Tables Call where
  call call := call.paysOrUpdates = true
  step call s tr i
    | .customerSave customer => call.changes.isNone = true → customer.id = id → ReadProfile s tr i id
    | _ => True

instance (id : UUID) : DecidablePred (profiling id).call := fun call =>
  inferInstanceAs (Decidable (call.paysOrUpdates = true))

instance (s : Tables) (tr : Trace) (i : Nat) (id : UUID) : Decidable (ReadProfile s tr i id) :=
  inferInstanceAs (Decidable (∀ row ∈ s.customers, row.id = id → ∀ c ∈ lastRead tr i,
    c.profile = row.load.profile))

instance (id : UUID) (call : Call) (s : Tables) (tr : Trace) (i : Nat) :
    (o : Op) → Decidable ((profiling id).step call s tr i o)
  | .customerSave customer => inferInstanceAs (Decidable
      (call.changes.isNone = true → customer.id = id → ReadProfile s tr i id))
  | .customerByExternalId _ _ | .customerById _ _ | .customerCreate _ | .customerDelete _
  | .accountByNumber _ | .accountByRef _ | .accountFirstByRef _ | .accountFirstByCustomer _
  | .accountFetchCustomer _ | .accountCreate _ | .accountSave _ | .transactionByNombaId _
  | .transactionByMerchantTxRef _ | .transactionCreate _ | .suspenseLogCreate _ _ _
  | .reconciliationLogCreate _ | .processedExists _ | .processedCreate _ _
  | .registrationCreate _ _ _ _ | .registrationsActive _ | .emitPaymentReceived _ | .post _ _ _
  | .nombaCreateAccount _ _ | .nombaUpdateAccountName _ _ | .nombaListTransactions => .isTrue trivial

/-- Updates are started one after another. -/
abbrev UpdatesInTurn (s : Tables) (schedule : List (Move Call Err)) : Prop :=
  Pool.Along exec Call.handler (Pool.StartsInTurn fun call => call.changes.isSome = true) (Pool.init s)
    schedule

/-- The columns of a customer that no call changes. -/
def Customer.identity {μ : Type} (c : Customer μ) : UUID × UUID × String :=
  (c.id, c.merchantId, c.merchantCustomerId)

/-- No customer of the merchant has the text as its id. -/
def Unidentified (db : Tables) (customerId : String) (merchantId : UUID) : Prop :=
  ∀ id, parseUuid customerId = some id → ∀ c ∈ db.customers, c.merchantId = merchantId → c.id ≠ id

/-- The call updates the customer: by its id, or else by its external id. -/
def Addresses {μ : Type} (db : Tables) (call : Call) (c : Customer μ) : Prop :=
  match call with
  | .update customerId _ merchantId _ => c.merchantId = merchantId ∧
      (parseUuid customerId = some c.id ∨
        Unidentified db customerId merchantId ∧ c.merchantCustomerId = customerId)
  | _ => False

structure Registry (db s : Tables) : Prop where
  constraints : s.Constraints
  directory : s.customers.map Customer.identity = db.customers.map Customer.identity

/-- The object is that of a customer in the directory. -/
def Listed (db : Tables) (c : Customer Decimal) : Prop :=
  c.identity ∈ db.customers.map Customer.identity

/-- What a call has read and saved in its place. -/
def Tracks (db : Tables) (tr : Trace) (i : Nat) (call : Call) : Place → Prop
  | .loaded _ (some c) | .inserted _ c _ => lastRead tr i = some c ∧ Listed db c
  | .arrived => ∀ id, savedBy tr i id = false
  | .unresolved => (∀ id, savedBy tr i id = false) ∧ ∀ customerId body merchantId nomba,
      call = .update customerId body merchantId nomba → Unidentified db customerId merchantId
  | .found c => (∀ id, savedBy tr i id = false) ∧ Listed db c ∧ Addresses db call c
  | .saved c => Listed db c ∧ Addresses db call c ∧ savedBy tr i c.id = true
  | .linked _ | .closing => ∃ c, Listed db c ∧ Addresses db call c ∧ savedBy tr i c.id = true
  | _ => True

/-! ## One turn -/

section Turn

variable {db s s' : Tables} {tr : Trace} {i j : Nat} {call : Call} {g : Place} {o : Op}
  {f : Res o → Place} {r : Res o} {id : UUID} {c : Customer Decimal}

theorem Registry.listed (h : Registry db s) {row : Customer Cents} (hrow : row ∈ s.customers) :
    Listed db row.load := by
  unfold Listed
  rw [← h.directory]
  exact List.mem_map.mpr ⟨row, hrow, rfl⟩

/-- The rows of a listed object have its identity. -/
theorem Registry.identity (h : Registry db s) (hc : Listed db c) {row : Customer Cents}
    (hrow : row ∈ s.customers) (hid : row.id = c.id) : row.identity = c.identity := by
  unfold Listed at hc
  rw [← h.directory] at hc
  obtain ⟨row', hrow', hsame⟩ := List.mem_map.mp hc
  have hkey : row'.id = c.id := congrArg Prod.fst hsame
  rw [eq_of_key h.constraints.customer_pk hrow hrow' (hid.trans hkey.symm)]
  exact hsame

theorem saves_listed {f : Res (.customerSave c) → Place} (turn : Turn call g (.customerSave c) f)
    (ht : Tracks db tr i call g) : Listed db c := by
  cases turn with
  | wait waits silent => cases silent
  | save kind => exact ht.2
  | edit => exact ht.2.1

theorem saved_silent (silent : o.silent = true) : Ledger.saved ⟨o, r⟩ ≠ some id := by
  cases o with
  | customerSave customer => cases silent
  | _ => nofun

theorem registry_next (hcall : call.paysOrUpdates = true) (h : Registry db s)
    (ht : Tracks db tr i call g) (turn : Turn call g o f) (run : exec o s = .ok (r, s')) :
    Registry db s' := by
  refine ⟨exec_constraints h.constraints run, ?_⟩
  cases hw : o.writes .customers with
  | false =>
    rw [(exec_frame run).customers hw]
    exact h.directory
  | true =>
    cases o with
    | customerSave customer =>
      obtain ⟨target, wallet, -, -, -, rfl⟩ := saveCustomer_ok_iff.mp (written_ok_iff.mp run)
      refine (map_setRow fun row hrow hid => ?_).trans h.directory
      exact (h.identity (saves_listed turn ht) hrow hid).symm
    | customerCreate new =>
      cases turn with
      | wait waits silent => cases silent
      | provide => cases hcall
    | customerDelete id =>
      cases turn with
      | wait waits silent => cases silent
      | compensate => cases hcall
    | _ => cases hw

theorem Tracks.other (hji : j ≠ i) {call' : Call} {g' : Place} (h : Tracks db tr j call' g') :
    Tracks db (tr ++ [(i, ⟨o, r⟩)]) j call' g' := by
  have hread : lastRead (tr ++ [(i, ⟨o, r⟩)]) j = lastRead tr j := lastRead_other hji
  have hsaved : ∀ id, savedBy (tr ++ [(i, ⟨o, r⟩)]) j id = savedBy tr j id :=
    fun id => savedBy_other hji
  cases g' with
  | loaded a c =>
    cases c with
    | none => trivial
    | some c => exact ⟨hread.trans h.1, h.2⟩
  | inserted a c t => exact ⟨hread.trans h.1, h.2⟩
  | arrived => exact fun id => (hsaved id).trans (h id)
  | unresolved | found c => exact ⟨fun id => (hsaved id).trans (h.1 id), h.2⟩
  | saved c => exact ⟨h.1, h.2.1, (hsaved _).trans h.2.2⟩
  | linked a | closing =>
    obtain ⟨c, hlisted, haddressed, hc⟩ := h
    exact ⟨c, hlisted, haddressed, (hsaved _).trans hc⟩
  | _ => trivial

/-- A row that is stored is in the directory, and the other way round. -/
theorem Registry.stored (h : Registry db s) {row : Customer Cents} (hrow : row ∈ db.customers) :
    ∃ row' ∈ s.customers, row'.identity = row.identity := by
  have hmem : row.identity ∈ s.customers.map Customer.identity := by
    rw [h.directory]
    exact List.mem_map.mpr ⟨row, hrow, rfl⟩
  exact List.mem_map.mp hmem

/-- A lookup by id finds the customer that the update addresses, or nothing of the merchant has the id. -/
theorem tracks_byId (h : Registry db s) (hnew : ∀ id, savedBy tr i id = false) {customerId : String}
    {merchantId : UUID} (parsed : parseUuid customerId = some id) (body : UpdateCustomerRequest)
    (nomba : NombaOutcome) {r : Option (Customer Decimal)}
    (hfound : (getOrNone (fun c => c.id = id ∧ c.merchantId = merchantId) s.customers).map
      (Option.map Customer.load) = .ok r) :
    Tracks db (tr ++ [(i, ⟨.customerById id merchantId, r⟩)]) i
      (.update customerId body merchantId nomba) (r.elim .unresolved .found) := by
  have hquiet : ∀ id', savedBy (tr ++ [(i, (⟨.customerById id merchantId, r⟩ : Event Op Res))]) i id' =
      false := fun id' => (savedBy_silent (saved_silent rfl)).trans (hnew id')
  cases r with
  | none =>
    refine ⟨hquiet, fun customerId' body' merchantId' nomba' hcall id' hparse row hrow howner hid => ?_⟩
    cases hcall
    obtain ⟨row', hrow', hsame⟩ := h.stored hrow
    have hnone := getOrNone_load_none hfound row' hrow'
    simp only [decide_eq_false_iff_not] at hnone
    rw [parsed, Option.some.injEq] at hparse
    have hkey : row'.id = row.id := congrArg Prod.fst hsame
    have hmerchant : row'.merchantId = row.merchantId := congrArg (fun k => k.2.1) hsame
    exact hnone ⟨hkey.trans (hid.trans hparse.symm), hmerchant.trans howner⟩
  | some customer =>
    obtain ⟨row, hrow, hmatch, rfl⟩ := getOrNone_load hfound
    obtain ⟨hid, howner⟩ := of_decide_eq_true hmatch
    exact ⟨hquiet, h.listed hrow, howner, .inl (parsed.trans (congrArg some hid.symm))⟩

/-- A lookup by external id, once no id has led to a customer. -/
theorem tracks_byExternalId (h : Registry db s) (hnew : ∀ id, savedBy tr i id = false)
    {customerId : String} {merchantId : UUID} (hnone : Unidentified db customerId merchantId)
    (body : UpdateCustomerRequest) (nomba : NombaOutcome) {r : Option (Customer Decimal)}
    (hfound : (getOrNone (fun c => c.merchantId = merchantId ∧ c.merchantCustomerId = customerId)
      s.customers).map (Option.map Customer.load) = .ok r) :
    Tracks db (tr ++ [(i, ⟨.customerByExternalId merchantId customerId, r⟩)]) i
      (.update customerId body merchantId nomba) (r.elim .unresolved .found) := by
  have hquiet : ∀ id', savedBy (tr ++ [(i, (⟨.customerByExternalId merchantId customerId, r⟩ :
      Event Op Res))]) i id' = false := fun id' => (savedBy_silent (saved_silent rfl)).trans (hnew id')
  cases r with
  | none =>
    refine ⟨hquiet, fun customerId' body' merchantId' nomba' hcall => ?_⟩
    cases hcall
    exact hnone
  | some customer =>
    obtain ⟨row, hrow, hmatch, rfl⟩ := getOrNone_load hfound
    obtain ⟨howner, hname⟩ := of_decide_eq_true hmatch
    exact ⟨hquiet, h.listed hrow, howner, .inr ⟨hnone, hname⟩⟩

theorem tracks_next (hcall : call.paysOrUpdates = true) (h : Registry db s)
    (ht : Tracks db tr i call g) (turn : Turn call g o f) (run : exec o s = .ok (r, s')) :
    Tracks db (tr ++ [(i, ⟨o, r⟩)]) i call (f r) := by
  cases turn with
  | wait waits silent =>
    cases g with
    | arrived => exact fun id => (savedBy_silent (saved_silent silent)).trans (ht id)
    | closing =>
      obtain ⟨c, hlisted, haddressed, hc⟩ := ht
      exact ⟨c, hlisted, haddressed, savedBy_keeps hc⟩
    | settled | pending | chosen => trivial
    | _ => cases waits
  | check key =>
    cases r with
    | true => trivial
    | false => rcases opening_cases (kindOf _) with hg | hg | hg <;> exact hg ▸ trivial
  | byNumber kind =>
    cases r with
    | none => rcases byRef_cases _ with hg | hg <;> exact hg ▸ trivial
    | some a => trivial
  | load =>
    cases run
    cases hfind : s.customers.find? _ with
    | none => trivial
    | some row =>
      have hlisted := h.listed (List.mem_of_find?_eq_some hfind)
      exact ⟨lastRead_self rfl, hlisted⟩
  | insert kind active => exact ⟨(lastRead_silent rfl).trans ht.1, ht.2⟩
  | resolveById parsed => exact tracks_byId h ht parsed _ _ (answered_ok_iff.mp run).1
  | @resolveByExternalId customerId body merchantId nomba g seeking =>
    have hfound := (answered_ok_iff.mp run).1
    cases seeking with
    | unparsed hparse =>
      have hnone : Unidentified db customerId merchantId := by
        intro id hid
        rw [hparse] at hid
        cases hid
      exact tracks_byExternalId h ht hnone body nomba hfound
    | unresolved => exact tracks_byExternalId h ht.1 (ht.2 _ _ _ _ rfl) body nomba hfound
  | edit =>
    refine ⟨ht.2.1, ht.2.2, ?_⟩
    rw [savedBy_append]
    simp [Ledger.saved, applyUpdate]
  | @findAccount customerId body merchantId nomba customer =>
    cases r <;> exact ⟨customer, ht.1, ht.2.1, savedBy_keeps ht.2.2⟩
  | rename =>
    obtain ⟨c, hlisted, haddressed, hc⟩ := ht
    exact ⟨c, hlisted, haddressed, savedBy_keeps hc⟩
  | byReference => cases r <;> trivial
  | ignore | hold | suspend | logSuspense | save | logCredit | emit | mark => trivial
  | provide | compensate | openAccount | choose | openDedicated | matchById | matchByRef | logMatch =>
    cases hcall

/-- Only a lookup finds a customer for an update, as it is stored. -/
theorem found_stored (turn : Turn call g o f) (run : exec o s = .ok (r, s')) (hf : f r = .found c) :
    ∃ row ∈ s.customers, c = row.load := by
  cases turn with
  | resolveById | resolveByExternalId =>
    cases r with
    | none => cases hf
    | some customer =>
      cases hf
      obtain ⟨row, hrow, -, hload⟩ := getOrNone_load (answered_ok_iff.mp run).1
      exact ⟨row, hrow, hload⟩
  | wait waits silent =>
    subst hf
    cases waits
  | check key =>
    cases r with
    | true => cases hf
    | false => rcases opening_cases (kindOf _) with hg | hg | hg <;> exact absurd (hg.symm.trans hf) nofun
  | byNumber kind =>
    cases r with
    | none => rcases byRef_cases _ with hg | hg <;> exact absurd (hg.symm.trans hf) nofun
    | some a => cases hf
  | byReference | findAccount | choose | matchById | matchByRef => cases r <;> cases hf
  | _ => cases hf

/-- Every row of the customer has the profile that one had before. -/
def KeepsProfile (id : UUID) (s s' : Tables) : Prop :=
  ∀ row' ∈ s'.customers, row'.id = id → ∃ row ∈ s.customers, row.id = id ∧ row'.profile = row.profile

/-- An update writes what it has found, edited, to the customer. -/
def Edits (id : UUID) (s s' : Tables) (call : Call) (g : Place) (o : Op)
    (f : Res o → Place) (r : Res o) : Prop :=
  ∃ (c : Customer Decimal) (body : UpdateCustomerRequest) (target : Option Cents) (wallet : Cents)
    (time : Time), g = .found c ∧ call.changes = some body ∧ c.id = id ∧
      f r = .saved (applyUpdate body c) ∧ Ledger.saved ⟨o, r⟩ = some id ∧
      (applyUpdate body c).targetAmount.mapM numericColumn = .ok target ∧
      s'.customers = setRow (·.id) ((applyUpdate body c).dump target wallet time) s.customers

/-- A turn keeps the profile of the customer, or is the edit of an update. -/
theorem turn_profile (hcall : call.paysOrUpdates = true) (h : Registry db s)
    (ht : Tracks db tr i call g) (turn : Turn call g o f) (run : exec o s = .ok (r, s'))
    (allowed : (profiling id).step call s tr i o) :
    KeepsProfile id s s' ∧ (call.changes ≠ none → Ledger.saved ⟨o, r⟩ ≠ some id) ∨
      Edits id s s' call g o f r := by
  cases hw : o.writes .customers with
  | false =>
    left
    refine ⟨fun row hrow hid => ?_, fun _ hsaved => ?_⟩
    · rw [(exec_frame run).customers hw] at hrow
      exact ⟨row, hrow, hid, rfl⟩
    · cases o with
      | customerSave customer => cases hw
      | _ => cases hsaved
  | true =>
    cases o with
    | customerSave customer =>
      obtain ⟨target, wallet, htarget, -, -, rfl⟩ := saveCustomer_ok_iff.mp (written_ok_iff.mp run)
      by_cases hid : customer.id = id
      · cases turn with
        | wait waits silent => cases silent
        | @save env payload requestId p account customer t kind =>
          left
          refine ⟨fun row hrow hrowid => ?_, fun hupdate => absurd rfl hupdate⟩
          rcases mem_setRow.mp hrow with ⟨rfl, row', hrow', hsame⟩ | ⟨hold, -⟩
          · have hid' : row'.id = id := hsame.trans hid
            have hread := allowed rfl hid row' hrow' hid' customer ht.1
            refine ⟨row', hrow', hid', ?_⟩
            exact profile_dump hread (h.constraints.customer_columns row' hrow').2 htarget _ _
          · exact ⟨row, hold, hrowid, rfl⟩
        | @edit customerId body merchantId nomba customer =>
          right
          exact ⟨customer, body, target, wallet, s.clock, rfl, rfl, hid, rfl, congrArg some hid, htarget,
            rfl⟩
      · left
        refine ⟨fun row hrow hrowid => ?_, fun _ hsaved => hid (Option.some.inj hsaved)⟩
        rcases mem_setRow.mp hrow with ⟨rfl, -⟩ | ⟨hold, -⟩
        · exact absurd hrowid hid
        · exact ⟨row, hold, hrowid, rfl⟩
    | customerCreate new =>
      cases turn with
      | wait waits silent => cases silent
      | provide => cases hcall
    | customerDelete id =>
      cases turn with
      | wait waits silent => cases silent
      | compensate => cases hcall
    | _ => cases hw

end Turn

/-! ## Every schedule -/

/-- No update was started after program `i`. -/
def Latest (places : List (Call × Place)) (i : Nat) : Prop :=
  ∀ (j : Nat) (call : Call) (g : Place), places[j]? = some (call, g) → call.changes ≠ none → j ≤ i

/-- The profile holds the last values, and the update that runs has read the profile that is stored. -/
structure Profiled (db : Tables) (row : Customer Cents)
    (v : Protocol.View Op Res Tables Call Place) : Prop where
  tracks : Protocol.Modular (profiling row.id) (fun s _ => Registry db s)
    (fun _ tr i call g => Tracks db tr i call g) v
  fresh : ∀ (i : Nat) (call : Call) (c : Customer Decimal), v.places[i]? = some (call, .found c) →
    Latest v.places i → c.id = row.id → ∀ r ∈ v.state.customers, r.id = row.id →
      c.profile = r.load.profile
  last : ∀ r ∈ v.state.customers, r.id = row.id →
    HoldsLast (applied (v.places.map Prod.fst) v.trace row.id) row.profile r.profile

section Schedule

variable {db : Tables} {row : Customer Cents} {v v' : Protocol.View Op Res Tables Call Place}

theorem load_profile {r r' : Customer Cents} (h : r.profile = r'.profile) :
    r.load.profile = r'.load.profile := by
  simp only [Customer.profile, Profile.mk.injEq, Customer.load] at h ⊢
  obtain ⟨hname, hemail, hphone, hamount, hmetadata⟩ := h
  exact ⟨hname, hemail, hphone, congrArg _ hamount, hmetadata⟩

theorem latest_set {places : List (Call × Place)} {i j : Nat} {call : Call} {g g' : Place}
    (hi : places[i]? = some (call, g)) (h : Latest (places.set i (call, g')) j) : Latest places j := by
  intro k call' g'' hk hupdate
  by_cases hik : i = k
  · subst hik
    rw [hi, Option.some.injEq, Prod.mk.injEq] at hk
    obtain ⟨rfl, -⟩ := hk
    exact h i call g' (List.getElem?_set_self (List.getElem?_eq_some_iff.mp hi).1) hupdate
  · exact h k call' g'' (by rw [List.getElem?_set_ne hik]; exact hk) hupdate

theorem latest_append {places : List (Call × Place)} {x : Call × Place} {j : Nat}
    (h : Latest (places ++ [x]) j) : Latest places j := by
  intro k call g hk hupdate
  refine h k call g ?_ hupdate
  rw [List.getElem?_append_left (List.getElem?_eq_some_iff.mp hk).1]
  exact hk

theorem tracks_view (h : Profiled db row v) (hn : service.Next exec (profiling row.id) v v') :
    Protocol.Modular (profiling row.id) (fun s _ => Registry db s)
      (fun _ tr i call g => Tracks db tr i call g) v' := by
  refine Protocol.modular_next ?_ ?_ ?_ h.tracks hn
  · exact fun s tr i call _ _ hnew id => savedBy_absent hnew
  · intro s tr i call g o f r s' hcall hG hT turn run _
    exact ⟨registry_next hcall hG hT turn run, tracks_next hcall hG hT turn run⟩
  · intro s tr i call g o f r s' _ _ _ _ _ _ j call' g' hji _ hTj
    exact hTj.other hji

/-- A new call has saved nothing and found nothing. -/
theorem profiled_start (h : Profiled db row v) {c : Call} (hc : (profiling row.id).call c) :
    Profiled db row { v with places := v.places ++ [(c, .arrived)] } := by
  refine ⟨tracks_view h (.start c hc), fun i call found hi hlatest => ?_, ?_⟩
  · refine h.fresh i call found ?_ (latest_append hlatest)
    simp only [List.getElem?_append] at hi
    split_ifs at hi with hlt
    · exact hi
    · have hmem := List.mem_singleton.mp (List.mem_of_getElem? hi)
      cases hmem
  · have hindex : ∀ e ∈ v.trace, e.1 < (v.places.map Prod.fst).length := by
      intro e he
      rw [List.length_map]
      exact h.tracks.index e he
    intro r hr hid
    show HoldsLast (applied ((v.places ++ [(c, Place.arrived)]).map Prod.fst) v.trace row.id) _ _
    rw [List.map_append, List.map_singleton, applied_start hindex]
    exact h.last r hr hid

section Act

variable {i : Nat} {call : Call} {g : Place} {o : Op} {f : Res o → Place} {r : Res o} {s' : Tables}

theorem call_at {j : Nat} {call' : Call} (hj : (v.places.map Prod.fst)[j]? = some call') :
    ∃ g, v.places[j]? = some (call', g) := by
  rw [List.getElem?_map] at hj
  obtain ⟨⟨call'', g⟩, hplace, rfl⟩ := Option.map_eq_some_iff.mp hj
  exact ⟨g, hplace⟩

/-- A turn that keeps the profile. -/
theorem profiled_kept (h : Profiled db row v) (hi : v.places[i]? = some (call, g))
    (turn : Turn call g o f) (run : exec o v.state = .ok (r, s'))
    (allowed : (profiling row.id).step call v.state v.trace i o) (hkeep : KeepsProfile row.id v.state s')
    (hquiet : call.changes ≠ none → Ledger.saved ⟨o, r⟩ ≠ some row.id) :
    Profiled db row ⟨s', v.places.set i (call, f r), v.trace ++ [(i, ⟨o, r⟩)]⟩ := by
  have hpk := h.tracks.shared.constraints.customer_pk
  refine ⟨tracks_view h (.act i call g o f r s' hi turn run allowed), ?_, fun r' hr' hid => ?_⟩
  · intro j call' c hj hlatest hc r' hr' hid
    obtain ⟨r₀, hr₀, hid₀, hsame⟩ := hkeep r' hr' hid
    rw [load_profile hsame]
    by_cases hij : i = j
    · subst hij
      simp only [List.getElem?_set_self (List.getElem?_eq_some_iff.mp hi).1, Option.some.injEq,
        Prod.mk.injEq] at hj
      obtain ⟨row₀, hrow₀, rfl⟩ := found_stored turn run hj.2
      rw [eq_of_key hpk hr₀ hrow₀ (hid₀.trans hc.symm)]
    · simp only [List.getElem?_set_ne hij] at hj
      exact h.fresh j call' c hj (latest_set hi hlatest) hc r₀ hr₀ hid₀
  · obtain ⟨r₀, hr₀, hid₀, hsame⟩ := hkeep r' hr' hid
    rw [hsame, Pool.map_fst_set hi]
    have happlied : applied (v.places.map Prod.fst) (v.trace ++ [(i, ⟨o, r⟩)]) row.id =
        applied (v.places.map Prod.fst) v.trace row.id := by
      refine applied_same fun k call' hk hupdate => ?_
      by_cases hki : k = i
      · subst hki
        obtain ⟨g', hplace⟩ := call_at hk
        rw [hi, Option.some.injEq, Prod.mk.injEq] at hplace
        exact savedBy_silent (hquiet (hplace.1 ▸ hupdate))
      · exact savedBy_other hki
    rw [happlied]
    exact h.last r₀ hr₀ hid₀

/-- The edit of an update, which is the last. -/
theorem profiled_edit (h : Profiled db row v) (hi : v.places[i]? = some (call, g))
    (turn : Turn call g o f) (run : exec o v.state = .ok (r, s'))
    (allowed : (profiling row.id).step call v.state v.trace i o)
    (hedit : Edits row.id v.state s' call g o f r)
    (hlatest : call.changes ≠ none → Latest v.places i) :
    Profiled db row ⟨s', v.places.set i (call, f r), v.trace ++ [(i, ⟨o, r⟩)]⟩ := by
  have htracks := tracks_view h (.act i call g o f r s' hi turn run allowed)
  obtain ⟨c, body, target, wallet, time, rfl, hbody, hid, hf, hsaved, htarget, hrows⟩ := hedit
  have hlast : Latest v.places i := hlatest (by rw [hbody]; nofun)
  refine ⟨htracks, ?_, fun r' hr' hid' => ?_⟩
  · intro j call' c' hj hlatest' _ _ _ _
    by_cases hij : i = j
    · subst hij
      simp only [List.getElem?_set_self (List.getElem?_eq_some_iff.mp hi).1, Option.some.injEq,
        Prod.mk.injEq] at hj
      have hplace : Place.saved (applyUpdate body c) = .found c' := hf.symm.trans hj.2
      cases hplace
    · -- another update at this place was started before, and is not the latest
      simp only [List.getElem?_set_ne hij] at hj
      have haddressed := (h.tracks.program j call' _ hj).2.2.2
      have hupdate : call'.changes ≠ none := by
        cases call' with
        | update _ _ _ _ => nofun
        | _ => exact haddressed.elim
      have hle := hlast j call' _ hj hupdate
      have hge := latest_set hi hlatest' i call _ hi (by rw [hbody]; nofun)
      omega
  · simp only [hrows] at hr'
    rcases mem_setRow.mp hr' with ⟨rfl, r₀, hr₀, hid₀⟩ | ⟨-, hne⟩
    · have hid₁ : r₀.id = row.id := hid₀.trans hid
      have hfresh := h.fresh i call c hi hlast hid r₀ hr₀ hid₁
      have hcalls : (v.places.map Prod.fst)[i]? = some call := by
        rw [List.getElem?_map, hi]
        rfl
      have hfirst := (h.tracks.program i call _ hi).2.1 row.id
      rw [Pool.map_fst_set hi, applied_save hcalls hbody hfirst hsaved fun j call' hj hupdate => by
        obtain ⟨g', hplace⟩ := call_at hj
        exact hlast j call' g' hplace hupdate]
      exact (h.last r₀ hr₀ hid₁).update hfresh
        (h.tracks.shared.constraints.customer_columns r₀ hr₀).2 htarget wallet time
    · exact absurd (hid'.trans hid.symm) hne

end Act

theorem profiled_next (h : Profiled db row v) (hn : service.Next exec (profiling row.id) v v')
    (hl : Protocol.ActsLast (fun call : Call => call.changes.isSome = true) v v') :
    Profiled db row v' := by
  cases hn with
  | start c hc => exact profiled_start h hc
  | act i call g o f r s' hi turn run allowed =>
    obtain ⟨hcall, hT⟩ := h.tracks.program i call g hi
    rcases turn_profile hcall h.tracks.shared hT turn run allowed with ⟨hkeep, hquiet⟩ | hedit
    · exact profiled_kept h hi turn run allowed hkeep hquiet
    · refine profiled_edit h hi turn run allowed hedit fun hupdate j call' g' hj hupdate' => ?_
      exact hl i _ rfl call g hi (Option.isSome_iff_ne_none.mpr hupdate) j call' g' hj
        (Option.isSome_iff_ne_none.mpr hupdate')

end Schedule

theorem pays_scheduled {call : Call} (h : call.paysOrUpdates = true) : call.scheduled := by
  cases call with
  | receive _ _ | update _ _ _ _ => trivial
  | create | createDedicated | simulate | register | nightly => cases h

/-- The addressed customer is one. -/
theorem addresses_unique {db : Tables} (hc : db.Constraints) {call : Call} {row : Customer Cents}
    (hrow : row ∈ db.customers) (h : Addresses db call row) {c : Customer Decimal} (hlisted : Listed db c)
    (h' : Addresses db call c) : c.id = row.id := by
  obtain ⟨row', hrow', hsame⟩ := List.mem_map.mp hlisted
  have hid : row'.id = c.id := congrArg Prod.fst hsame
  have hmerchant : row'.merchantId = c.merchantId := congrArg (fun k => k.2.1) hsame
  have hname : row'.merchantCustomerId = c.merchantCustomerId := congrArg (fun k => k.2.2) hsame
  cases call with
  | update customerId body merchantId nomba =>
    obtain ⟨howner, h⟩ := h
    obtain ⟨howner', h'⟩ := h'
    rcases h with hparse | ⟨hunknown, hexternal⟩
    · rcases h' with hparse' | ⟨hunknown', -⟩
      · exact Option.some.inj (hparse'.symm.trans hparse)
      · exact absurd rfl (hunknown' row.id hparse row hrow howner)
    · rcases h' with hparse' | ⟨-, hexternal'⟩
      · exact absurd hid (hunknown c.id hparse' row' hrow' (hmerchant.trans howner'))
      · have hkey : (row'.merchantId, row'.merchantCustomerId) = (row.merchantId, row.merchantCustomerId) := by
          rw [hmerchant, howner', hname, hexternal', howner, hexternal]
        rw [← hid, eq_of_key hc.customer_unique hrow' hrow hkey]
  | _ => exact h.elim

/-- The profile of the customer holds the last values of the updates that have saved it, and every update
of the customer that has returned is one of them. -/
structure ProfileKept (db : Tables) (row : Customer Cents) (P : Pool Op Res Err Reply Tables Call) :
    Prop where
  profile : ∃ after ∈ P.state.customers, after.id = row.id ∧
    HoldsLast (applied (P.threads.map Prod.fst) P.trace row.id) row.profile after.profile
  returned : ∀ i call reply, P.threads[i]? = some (call, .pure reply) → Addresses db call row →
    savedBy P.trace i row.id = true

/-- For every customer, any number of deliveries, and updates that are started one after another, in any
interleaving: if every delivery that saves the customer has read its stored profile, then at every moment
each column of the profile holds what the last update that supplied it has set. -/
theorem profile_kept (db : Database) (row : Customer Cents) (hrow : row ∈ db.tables.customers)
    (schedule : List (Move Call Err)) (hmeets : Meets (profiling row.id) db.tables schedule)
    (hturn : UpdatesInTurn db.tables schedule) (P : Pool Op Res Err Reply Tables Call)
    (hplay : play db.tables schedule = some P) : ProfileKept db.tables row P := by
  have hinit : Profiled db.tables row ⟨db.tables, [], []⟩ := by
    refine ⟨Protocol.Modular.init ⟨db.constraints, rfl⟩, fun i call c hi => by simp at hi, ?_⟩
    intro r hr hid
    rw [eq_of_key db.constraints.customer_pk hr hrow hid]
    exact holdsLast_nil
  obtain ⟨v, hv, hI⟩ := Protocol.play_in_turn (fun call hc => follows_handler (pays_scheduled hc))
    (fun _ _ => profiled_next) (Protocol.Views.init db.tables) hinit Pool.succeeding_init hmeets hturn
    hplay
  refine ⟨?_, fun i call reply hi haddressed => ?_⟩
  · obtain ⟨after, hafter, hsame⟩ := hI.tracks.shared.stored hrow
    have hid : after.id = row.id := congrArg Prod.fst hsame
    refine ⟨after, hv.state ▸ hafter, hid, ?_⟩
    rw [← hv.calls, ← hv.trace]
    exact hI.last after hafter hid
  · obtain ⟨g, hg, hfollows⟩ := hv.follows i call _ hi
    obtain ⟨-, htracks⟩ := hI.tracks.program i call g hg
    rw [← hv.trace]
    cases call with
    | update customerId body merchantId nomba =>
      have hends : g = .closing ∨ ∃ account, g = .linked account := by
        cases hfollows with
        | pure hends => exact hends
      obtain ⟨c, hlisted, haddressed', hc⟩ : ∃ c, Listed db.tables c ∧
          Addresses db.tables (.update customerId body merchantId nomba) c ∧
            savedBy v.trace i c.id = true := by
        rcases hends with rfl | ⟨account, rfl⟩ <;> exact htracks
      rw [← addresses_unique db.constraints hrow haddressed hlisted haddressed']
      exact hc
    | _ => exact haddressed.elim

/-- An update that gives the sample customer another name. -/
def nameChange : Call :=
  .update "cust-1" ⟨some "Grace", none, none, none, none⟩ 7 (.success (.obj []))

/-- The update ends before the payment starts. -/
def renamedFirst : List (Move Call Err) :=
  .start nameChange :: List.replicate 6 (.advance 0) ++
    .start (.receive quiet (samplePayment "R1" "9901" 5)) :: List.replicate 9 (.advance 1)

theorem profile_kept_when_renamed_first : ∃ P, play (provisioned none).tables renamedFirst = some P ∧
    ProfileKept (provisioned none).tables sampleCustomer P := by
  have hrow : sampleCustomer ∈ (provisioned none).tables.customers := by
    rw [sample_rows.2]
    exact List.mem_singleton.mpr rfl
  have hmeets : Meets (profiling sampleCustomer.id) (provisioned none).tables renamedFirst := by
    decide +kernel
  have hturn : UpdatesInTurn (provisioned none).tables renamedFirst := by
    decide +kernel
  have hrun : (play (provisioned none).tables renamedFirst).isSome = true := by
    decide +kernel
  obtain ⟨P, hplay⟩ := Option.isSome_iff_exists.mp hrun
  exact ⟨P, hplay, profile_kept (provisioned none) sampleCustomer hrow renamedFirst hmeets hturn P hplay⟩

/-- The payment reads the customer, the update runs, the payment saves. -/
def reverting : List (Move Call Err) :=
  .start (.receive quiet (samplePayment "R1" "9901" 5)) :: List.replicate 3 (.advance 0) ++
    .start nameChange :: List.replicate 6 (.advance 1) ++ List.replicate 6 (.advance 0)

theorem profile_reverted : ∃ P, play (provisioned none).tables reverting = some P ∧ P.AllReturned ∧
    (∀ t ∈ P.threads, (profiling sampleCustomer.id).call t.1) ∧
    UpdatesInTurn (provisioned none).tables reverting ∧ ∀ after ∈ P.state.customers,
      ¬ HoldsLast (applied (P.threads.map Prod.fst) P.trace sampleCustomer.id) sampleCustomer.profile
        after.profile := by
  have hturn : UpdatesInTurn (provisioned none).tables reverting := by
    decide +kernel
  have hrun : (play (provisioned none).tables reverting).map (fun P =>
      (P.state.customers.map (·.name), (applied (P.threads.map Prod.fst) P.trace 0).map (·.name),
        P.threads.all fun t => Pool.returned t.2 && t.1.paysOrUpdates)) =
          some (["Ada"], [some "Grace"], true) := by
    decide +kernel
  obtain ⟨P, hplay, hend⟩ := Option.map_eq_some_iff.mp hrun
  obtain ⟨hnames, hend⟩ := Prod.mk.inj hend
  obtain ⟨happlied, hthreads⟩ := Prod.mk.inj hend
  have hall : ∀ t ∈ P.threads, Pool.returned t.2 = true ∧ t.1.paysOrUpdates = true := by
    simpa only [List.all_eq_true, Bool.and_eq_true] using hthreads
  refine ⟨P, hplay, Pool.allReturned_iff.mpr ?_, fun t ht => (hall t ht).2, hturn, fun after hafter h => ?_⟩
  · exact List.all_eq_true.mpr fun t ht => (hall t ht).1
  · have hname : after.name = "Ada" :=
      List.mem_singleton.mp (hnames ▸ List.mem_map.mpr ⟨after, hafter, rfl⟩)
    have hlast : lastSupplied (·.name) (applied (P.threads.map Prod.fst) P.trace 0) = some "Grace" := by
      have hvalues := congrArg (List.filterMap id) happlied
      rw [List.filterMap_map] at hvalues
      exact congrArg List.getLast? hvalues
    have hset := h.name
    rw [show sampleCustomer.id = 0 from rfl, hlast] at hset
    exact absurd (hname.symm.trans hset) (by decide)

end LdbBackend
