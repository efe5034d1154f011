import LdbBackend.History.Heard
import LdbBackend.History.Agreement
import LdbBackend.Lib.Normal
import LdbBackend.Lib.Numeral

/-!
# The wallets as an endpoint hears of them

A merchant that adds up the amounts it is POSTed for a customer gets what was credited to the wallet since
it registered, if no delivery raises behind its insert (`notifications_mirror_wallets`). A delivery that
does may credit without a word, so in general the sum is only a lower bound
(`notifications_never_overstate`).
-/

namespace LdbBackend

open Fixed Effects Table

/-- The bodies POSTed to an endpoint under a secret. -/
def bodiesTo (url secret : String) (events : List (Event Op Res)) : List OutboundPayload :=
  events.filterMap fun
    | ⟨.post u s body, _⟩ => if u = url ∧ s = secret then some body else none
    | _ => none

/-- The amount a body tells of. -/
def OutboundPayload.amount (body : OutboundPayload) : ℚ :=
  ((Decimal.ofString body.amountReceived).map Decimal.toRat).getD 0

/-- What the bodies tell of one customer, added up. -/
def received (externalId : String) (bodies : List OutboundPayload) : ℚ :=
  ((bodies.filter (·.customerId = externalId)).map (·.amount)).sum

/-- The POSTs of a step. -/
def Step.posts (db : Tables) : Step → List (Event Op Res)
  | .call c => (postsOf c.handler db).events
  | .setStatus _ _ => []

/-- The step does not raise once it has inserted a transaction. -/
def Step.Completes (db : Tables) : Step → Prop
  | .call c => ∀ e, (Prog.run exec c.handler db).1 = .error e →
      (stateAfter c.handler db).transactions = db.transactions
  | .setStatus _ _ => True

namespace History

def posts : History → List Step → List (Event Op Res)
  | _, [] => []
  | h, s :: steps => s.posts h.tables ++ posts (h.step s) steps

def Completes : History → List Step → Prop
  | _, [] => True
  | h, s :: steps => s.Completes h.tables ∧ Completes (h.step s) steps

end History

section Grows

variable {db db' : Tables}

/-- Ids are only given out, registrations only added. -/
structure Grows (db db' : Tables) : Prop where
  clock : db.clock ≤ db'.clock
  registrations : db.webhookRegistrations <+: db'.webhookRegistrations

theorem Grows.refl (db : Tables) : Grows db db := ⟨le_rfl, List.prefix_rfl⟩

theorem Grows.trans {db'' : Tables} (h : Grows db db') (h' : Grows db' db'') : Grows db db'' :=
  ⟨h.clock.trans h'.clock, h.registrations.trans h'.registrations⟩

theorem exec_grows {o : Op} {r : Res o} (h : exec o db = .ok (r, db')) : Grows db db' := by
  cases hq : o.isQuery with
  | true =>
    rw [exec_query hq h]
    exact .refl db
  | false =>
    cases o with
    | customerCreate new =>
      obtain ⟨_, -, -, -, rfl⟩ := createCustomer_ok_iff.mp h
      exact ⟨by simp, List.prefix_rfl⟩
    | customerSave c =>
      obtain ⟨_, _, -, -, -, rfl⟩ := saveCustomer_ok_iff.mp (written_ok_iff.mp h)
      exact ⟨by simp, List.prefix_rfl⟩
    | customerDelete id =>
      cases h
      exact ⟨le_rfl, List.prefix_rfl⟩
    | accountCreate new =>
      obtain ⟨-, -, -, rfl⟩ := createAccount_ok_iff.mp h
      exact ⟨by simp, List.prefix_rfl⟩
    | accountSave a =>
      obtain ⟨-, rfl⟩ := saveAccount_ok_iff.mp (written_ok_iff.mp h)
      exact ⟨by simp, List.prefix_rfl⟩
    | transactionCreate new =>
      obtain ⟨-, -, -, rfl⟩ := createTransaction_ok_iff.mp h
      exact ⟨by simp, List.prefix_rfl⟩
    | suspenseLogCreate t reason d =>
      obtain ⟨_, -, -, rfl⟩ := createSuspenseLog_ok_iff.mp (written_ok_iff.mp h)
      exact ⟨by simp, List.prefix_rfl⟩
    | reconciliationLogCreate new =>
      obtain ⟨_, -, -, rfl⟩ := createReconciliationLog_ok_iff.mp (written_ok_iff.mp h)
      exact ⟨by simp, List.prefix_rfl⟩
    | processedCreate x e =>
      obtain ⟨-, -, -, rfl⟩ := createProcessedEvent_ok_iff.mp (written_ok_iff.mp h)
      exact ⟨by simp, List.prefix_rfl⟩
    | registrationCreate m url secret events =>
      rw [createRegistration_ok h]
      exact ⟨by simp, List.prefix_append _ _⟩
    | _ => cases hq

theorem step_grows (h : History) (s : Step) : Grows h.tables (h.step s).tables := by
  cases s with
  | setStatus accountId status => exact ⟨le_rfl, List.prefix_rfl⟩
  | call c =>
    exact Prog.run_invariant exec (I := Grows h.tables) (fun o s r s' hs he => hs.trans (exec_grows he))
      c.handler h.tables (.refl h.tables)

theorem continue_grows (h : History) (steps : List Step) : Grows h.tables (h.continue steps).tables := by
  induction steps generalizing h with
  | nil => exact .refl h.tables
  | cons s steps ih => exact (step_grows h s).trans (ih (h.step s))

end Grows

/-! ## One step -/

theorem amount_storedText (n : Cents) :
    ((Decimal.ofString (storedText n)).map Decimal.toRat).getD 0 = n / 100 := by
  have hvalue : (Decimal.ofScaled 2 n).normalize.toRat = n / 10 ^ 2 := by
    by_cases hzero : (Decimal.ofScaled 2 n).coeff = 0
    · have hn := Decimal.toRat_ofScaled 2 n
      rw [Decimal.toRat_eq, hzero] at hn
      simp only [Decimal.normalize, if_pos hzero]
      rw [← hn, Decimal.toRat_eq]
      simp
    · rw [(Decimal.normalize_spec hzero).2, Decimal.toRat_ofScaled]
  unfold storedText
  rw [Decimal.ofString_str, Option.map_some, Option.getD_some, hvalue]
  norm_num

theorem amount_outboundPayload (customer : Customer Decimal) (account : DedicatedAccount) (t : Transaction) :
    (outboundPayload customer account t).amount = t.amount / 100 := by
  unfold OutboundPayload.amount outboundPayload
  exact amount_storedText t.amount

/-- What a step does to the wallets and what it tells the endpoints. -/
inductive Moves (h : History) (s : Step) : Prop
  | still (posts : s.posts h.tables = [])
      (wallets : ∀ c' ∈ (h.step s).tables.customers, (∃ c ∈ h.tables.customers, c.id = c'.id ∧
        c.walletBalance = c'.walletBalance) ∨ (h.tables.clock ≤ c'.id ∧ c'.walletBalance = 0))
  | credit (row : Customer Cents) (n : Cents) (body : OutboundPayload) (mem : row ∈ h.tables.customers)
      (customers : ∃ time, (h.step s).tables.customers = setRow (·.id)
        { row with walletBalance := row.walletBalance + n, updatedAt := time } h.tables.customers)
      (customerId : body.customerId = row.merchantCustomerId) (amount : body.amount = n / 100)
      (nonneg : (∀ payload, s.delivers h.tables = some payload → NonnegIn payload) → 0 ≤ n)
      (posts : ∃ rs, rs.Sublist (h.tables.subscribed row.merchantId) ∧
        s.posts h.tables = rs.map (posted body) ∧
        (s.Completes h.tables → rs = h.tables.subscribed row.merchantId))

section Step

variable {h : History} {s : Step} {db db' : Tables}

theorem posts_map {α β : Type} (f : α → β) (q : Handler α) (db : Tables) : postsOf (f <$> q) db =
    ⟨(postsOf q db).result.map f, (postsOf q db).state, (postsOf q db).events⟩ := by
  rw [map_eq_pure_bind]
  exact posts_last rfl f

theorem maintainsAll_wallets (hc : db.Constraints) (hm : MaintainsAll db db') : db'.Constraints ∧
    db.clock ≤ db'.clock ∧ ∀ c' ∈ db'.customers, (∃ c ∈ db.customers, c.id = c'.id ∧
      c.walletBalance = c'.walletBalance) ∨ (db.clock ≤ c'.id ∧ c'.walletBalance = 0) := by
  induction hm with
  | refl => exact ⟨hc, le_rfl, fun c hmem => .inl ⟨c, hmem, rfl, rfl⟩⟩
  | tail _ hstep ih =>
    obtain ⟨hc₁, hclock, hwallets⟩ := ih
    have hu := hstep.upkeep hc₁
    refine ⟨hstep.constraints hc₁, hclock.trans hu.clock, fun c' hmem' => ?_⟩
    rcases hu.wallets c' hmem' with ⟨c₁, hmem₁, hid₁, hwallet₁⟩ | ⟨hnew, hzero⟩
    · rw [← hid₁, ← hwallet₁]
      exact hwallets c₁ hmem₁
    · exact .inr ⟨hclock.trans hnew, hzero⟩

theorem moves_maintains (hc : h.tables.Constraints) (hs : s.delivers h.tables = none) : Moves h s := by
  refine .still ?_ (maintainsAll_wallets hc (step_maintains hc hs).1).2.2
  cases s with
  | setStatus accountId status => rfl
  | call c =>
    have hmute : ∀ {α : Type} (f : α → Reply) {q : Handler α}, Mute q →
        (postsOf (f <$> q) h.tables).events = [] := by
      intro α f q hq
      rw [posts_map]
      exact posts_mute hq h.tables
    cases c with
    | create body merchantId nomba => exact hmute _ (create_mute body merchantId nomba)
    | createDedicated body merchantId nomba => exact hmute _ (createDedicated_mute body merchantId nomba)
    | update customerId body merchantId nomba => exact hmute _ (update_mute customerId body merchantId nomba)
    | register body merchantId => exact hmute _ ⟨rfl, fun _ => trivial⟩
    | nightly checkedAt nomba => exact hmute _ (nightly_mute checkedAt nomba)
    | receive env payload => cases hs
    | simulate env requestId body => cases hs

/-- A step that delivers is a run of `receive`. -/
theorem delivering_step (hc : h.tables.Constraints) {payload : Json}
    (hs : s.delivers h.tables = some payload) : ∃ env,
      s.posts h.tables = (postsOf (receive env payload) h.tables).events ∧
      (h.step s).tables = (postsOf (receive env payload) h.tables).state ∧
      (s.Completes h.tables ↔ ∀ e, (postsOf (receive env payload) h.tables).result = .error e →
        (postsOf (receive env payload) h.tables).state.transactions = h.tables.transactions) := by
  have hreply : ∀ {c : Call} {q : Handler Response} {env : Surroundings}, c.handler = Reply.response <$> q →
      postsOf q h.tables = postsOf (receive env payload) h.tables →
      postsOf c.handler h.tables = ⟨(postsOf (receive env payload) h.tables).result.map Reply.response,
        (postsOf (receive env payload) h.tables).state, (postsOf (receive env payload) h.tables).events⟩ := by
    intro c q env hhandler hq
    rw [hhandler, posts_map, hq]
  have hcall : ∀ {c : Call} {env : Surroundings}, postsOf c.handler h.tables =
        ⟨(postsOf (receive env payload) h.tables).result.map Reply.response,
          (postsOf (receive env payload) h.tables).state, (postsOf (receive env payload) h.tables).events⟩ →
      (Step.call c).posts h.tables = (postsOf (receive env payload) h.tables).events ∧
      (h.step (.call c)).tables = (postsOf (receive env payload) h.tables).state ∧
      ((Step.call c).Completes h.tables ↔ ∀ e, (postsOf (receive env payload) h.tables).result = .error e →
        (postsOf (receive env payload) h.tables).state.transactions = h.tables.transactions) := by
    intro c env hposts
    have hresult : (Prog.run exec c.handler h.tables).1 = (postsOf (receive env payload) h.tables).result.map
        Reply.response := congrArg Outcome.result hposts
    have hstate : stateAfter c.handler h.tables = (postsOf (receive env payload) h.tables).state :=
      congrArg Outcome.state hposts
    refine ⟨congrArg Outcome.events hposts, hstate, ?_⟩
    show (∀ e, (Prog.run exec c.handler h.tables).1 = .error e →
      (stateAfter c.handler h.tables).transactions = h.tables.transactions) ↔ _
    rw [hresult, hstate]
    cases (postsOf (receive env payload) h.tables).result <;> simp [Except.map]
  cases s with
  | setStatus accountId status => cases hs
  | call c =>
    cases c with
    | receive env payload' =>
      cases hs
      exact ⟨env, hcall (hreply rfl rfl)⟩
    | simulate env requestId body =>
      cases hs
      refine ⟨env, hcall (hreply rfl ?_)⟩
      unfold simulate
      rw [Prog.op_bind, posts_skip (exec_accountByNumber hc _) rfl]
      rfl
    | create _ _ _ | createDedicated _ _ _ | update _ _ _ _ | register _ _ | nightly _ _ => cases hs

theorem attempted_sublist (post : WebhookRegistration → PostOutcome) (rs : List WebhookRegistration) :
    (attempted post rs).Sublist rs := by
  induction rs with
  | nil => simp [attempted]
  | cons r rs ih =>
    unfold attempted
    split
    · simp
    · simpa using ih
    · simpa using ih

theorem moves_delivers (hc : h.tables.Constraints) {payload : Json} (hs : s.delivers h.tables = some payload)
    (hexact : ExactIn h.tables payload) : Moves h s := by
  obtain ⟨env, hposts, htables, hcompletes⟩ := delivering_step hc hs
  have hstill : (h.step s).tables.customers = h.tables.customers → s.posts h.tables = [] → Moves h s := by
    intro hcustomers hnone
    refine .still hnone fun c' hmem => .inl ⟨c', ?_, rfl, rfl⟩
    rwa [hcustomers] at hmem
  rcases heard_receive hc with ⟨hnone, hcustomers⟩ | ⟨requestId, p, hk, hears⟩
  · exact hstill (htables ▸ hcustomers) (hposts.trans hnone)
  · generalize postsOf (receive env payload) h.tables = o at hposts htables hcompletes hears
    have hcredit : ∀ {account row t wallet}, Saves requestId payload (p.withReference env.reference) h.tables
        account row t wallet o.state → (∃ rs, rs.Sublist (h.tables.subscribed row.merchantId) ∧
          s.posts h.tables = rs.map (posted (outboundPayload ((p.withReference env.reference).creditedOwner row)
            account t)) ∧ (s.Completes h.tables → rs = h.tables.subscribed row.merchantId)) → Moves h s := by
      intro account row t wallet saves hrs
      obtain ⟨db₁, hi⟩ := saves.credit
      have hw := (exact_credit hexact hk hi).2.1
      obtain rfl := Except.ok.inj (saves.balance.symm.trans hw)
      obtain ⟨time, hcustomers⟩ := saves.customers
      exact .credit row t.amount _ hi.mem ⟨time, htables ▸ hcustomers⟩ rfl (amount_outboundPayload _ account t)
        (fun hpos => (amount_of_nonneg hexact (hpos payload hs) hk hi.insert).1) hrs
    cases hears with
    | silent customers => exact hstill (htables ▸ customers) hposts
    | muted saves =>
      refine hcredit saves ⟨[], List.nil_sublist _, hposts, fun hdone => ?_⟩
      have htx := hcompletes.mp hdone _ rfl
      rw [saves.transactions] at htx
      simp at htx
    | @announced account row t db' wallet result saves complete =>
      refine hcredit saves ⟨_, attempted_sublist env.post _, hposts, fun hdone => attempted_eq_self ?_⟩
      cases result with
      | ok response => exact ending_ok_iff.mp (complete response rfl)
      | error e =>
        have htx := hcompletes.mp hdone e rfl
        rw [saves.transactions] at htx
        simp at htx

theorem moves (hc : h.tables.Constraints)
    (hexact : ∀ payload, s.delivers h.tables = some payload → ExactIn h.tables payload) : Moves h s := by
  cases hs : s.delivers h.tables with
  | none => exact moves_maintains hc hs
  | some payload => exact moves_delivers hc hs (hexact payload hs)

end Step

/-! ## What one endpoint hears -/

section Endpoint

variable {h : History} {s : Step} {db : Tables} {r : WebhookRegistration} {rs : List WebhookRegistration}

/-- The registration is active, asks for the event, and is the only one of its URL and secret. -/
structure Listens (db : Tables) (r : WebhookRegistration) : Prop where
  active : r.active = true
  asked : outboundEventPaymentReceived ∈ r.events
  sole : (db.webhookRegistrations.filter fun x => x.url = r.url ∧ x.secret = r.secret) = [r]

theorem bodiesTo_append (url secret : String) (events events' : List (Event Op Res)) :
    bodiesTo url secret (events ++ events') = bodiesTo url secret events ++ bodiesTo url secret events' :=
  List.filterMap_append

theorem bodiesTo_posted (url secret : String) (body : OutboundPayload) (rs : List WebhookRegistration) :
    bodiesTo url secret (rs.map (posted body)) =
      (rs.filter fun x => x.url = url ∧ x.secret = secret).map fun _ => body := by
  unfold bodiesTo
  induction rs with
  | nil => rfl
  | cons x rs ih =>
    rw [List.map_cons, List.filterMap_cons, ih, List.filter_cons]
    by_cases hx : x.url = url ∧ x.secret = secret <;> simp [posted, hx]

theorem filter_subscribed (hr : Listens db r) (merchantId : UUID) :
    ((db.subscribed merchantId).filter fun x => x.url = r.url ∧ x.secret = r.secret) =
      if r.merchantId = merchantId then [r] else [] := by
  unfold Tables.subscribed
  rw [List.filter_comm, List.filter_comm (l := db.webhookRegistrations), hr.sole]
  by_cases hm : r.merchantId = merchantId <;> simp [hm, hr.active, hr.asked]

/-- Of one announcement the endpoint hears once or not at all, and not at all only if it is not for its
merchant or the announcement did not reach everyone. -/
theorem heard_once (hr : Listens db r) {merchantId : UUID} (hrs : rs.Sublist (db.subscribed merchantId))
    (body : OutboundPayload) :
    (bodiesTo r.url r.secret (rs.map (posted body)) = [body] ∧ merchantId = r.merchantId) ∨
    (bodiesTo r.url r.secret (rs.map (posted body)) = [] ∧
      (rs = db.subscribed merchantId → merchantId ≠ r.merchantId)) := by
  have hsub := hrs.filter fun x => decide (x.url = r.url ∧ x.secret = r.secret)
  rw [filter_subscribed hr] at hsub
  rw [bodiesTo_posted]
  by_cases hm : r.merchantId = merchantId
  · rw [if_pos hm, List.sublist_singleton] at hsub
    rcases hsub with hnone | hone
    · refine .inr ⟨by rw [hnone]; rfl, fun hall => ?_⟩
      rw [hall, filter_subscribed hr, if_pos hm] at hnone
      cases hnone
    · exact .inl ⟨by rw [hone]; rfl, hm.symm⟩
  · rw [if_neg hm, List.sublist_nil] at hsub
    exact .inr ⟨by rw [hsub]; rfl, fun _ => Ne.symm hm⟩

/-! ## The sums -/

theorem received_append (externalId : String) (bodies bodies' : List OutboundPayload) :
    received externalId (bodies ++ bodies') = received externalId bodies + received externalId bodies' := by
  simp [received, List.filter_append]

theorem received_self (body : OutboundPayload) : received body.customerId [body] = body.amount := by
  simp [received]

theorem received_none {externalId : String} {bodies : List OutboundPayload}
    (hnone : ∀ body ∈ bodies, body.customerId ≠ externalId) : received externalId bodies = 0 := by
  have hempty : bodies.filter (fun body => decide (body.customerId = externalId)) = [] :=
    List.filter_eq_nil_iff.mpr fun body hbody => by simp [hnone body hbody]
  simp [received, hempty]

/-- What has been credited to the wallet since `base`, a new wallet having started from nothing. -/
def grown (base : Tables) (c : Customer Cents) : ℚ := (c.walletBalance - (base.wallet c.id).getD 0 : Cents) / 100

/-- The sums over the bodies are related by `R` to what the wallets of the merchant have grown by. -/
structure Mirrors (R : ℚ → ℚ → Prop) (base db : Tables) (merchantId : UUID) (bodies : List OutboundPayload) :
    Prop where
  clock : base.clock ≤ db.clock
  known : ∀ body ∈ bodies, ∃ k ∈ db.customerKeys, k.merchantId = merchantId ∧ k.externalId = body.customerId
  sums : ∀ c ∈ db.customers, c.merchantId = merchantId →
    R (received c.merchantCustomerId bodies) (grown base c)

variable {R : ℚ → ℚ → Prop} {base : Tables} {merchantId : UUID} {bodies : List OutboundPayload}

theorem mirrors_start (hrefl : ∀ a, R a a) (hc : base.Constraints) (merchantId : UUID) :
    Mirrors R base base merchantId [] := by
  refine ⟨le_rfl, by simp, fun c hmem _ => ?_⟩
  have hgrown : grown base c = 0 := by
    unfold grown
    rw [wallet_of_mem hc hmem]
    simp
  rw [hgrown]
  exact hrefl 0

theorem step_appends (hc : h.tables.Constraints) (s : Step) :
    h.tables.customerKeys <+: (h.step s).tables.customerKeys := by
  rcases step_keys hc s with ⟨key, -, hkeys⟩ | ⟨-, hkeys⟩
  · exact ⟨[key], hkeys.symm⟩
  · rw [hkeys]

/-- A customer of the next state is one of this state, with its key, or has an id that was not yet given. -/
theorem key_of_step (hc : h.tables.Constraints) (hc' : (h.step s).tables.Constraints) {c c' : Customer Cents}
    (hmem : c ∈ h.tables.customers) (hmem' : c' ∈ (h.step s).tables.customers) (hid : c.id = c'.id) :
    c.key = c'.key := by
  obtain ⟨d, hd, hkey⟩ := List.mem_map.mp ((step_appends hc s).subset (List.mem_map_of_mem hmem))
  have hdid : d.id = c'.id := (congrArg CustomerKey.id hkey).trans hid
  rw [← hkey, eq_of_key hc'.customer_pk hd hmem' hdid]

theorem external_unique (hc : db.Constraints) {c d : Customer Cents} (hmem : c ∈ db.customers)
    (hmem' : d ∈ db.customers) (hmerchant : c.merchantId = d.merchantId)
    (hexternal : c.merchantCustomerId = d.merchantCustomerId) : c = d :=
  eq_of_key hc.customer_unique hmem hmem' (Prod.ext hmerchant hexternal)

theorem mirrors_still (hm : Mirrors R base h.tables merchantId bodies) (hrefl : ∀ a, R a a)
    (hbase : base.Constraints) (hc : h.tables.Constraints) (hc' : (h.step s).tables.Constraints)
    (hclock : h.tables.clock ≤ (h.step s).tables.clock)
    (hwallets : ∀ c' ∈ (h.step s).tables.customers, (∃ c ∈ h.tables.customers, c.id = c'.id ∧
      c.walletBalance = c'.walletBalance) ∨ (h.tables.clock ≤ c'.id ∧ c'.walletBalance = 0)) :
    Mirrors R base (h.step s).tables merchantId bodies := by
  refine ⟨hm.clock.trans hclock, fun body hbody => ?_, fun c' hmem' hmerchant => ?_⟩
  · obtain ⟨k, hk, hkey⟩ := hm.known body hbody
    exact ⟨k, (step_appends hc s).subset hk, hkey⟩
  · rcases hwallets c' hmem' with ⟨c, hmem, hid, hwallet⟩ | ⟨hnew, hzero⟩
    · have hkey := key_of_step hc hc' hmem hmem' hid
      have hexternal : c.merchantCustomerId = c'.merchantCustomerId := congrArg CustomerKey.externalId hkey
      have hsame : c.merchantId = c'.merchantId := congrArg CustomerKey.merchantId hkey
      have hold := hm.sums c hmem (hsame.trans hmerchant)
      unfold grown at hold ⊢
      rwa [← hexternal, ← hid, ← hwallet]
    · -- nobody was told of a customer that was not there
      have hunheard : received c'.merchantCustomerId bodies = 0 := received_none fun body hbody hexternal => by
        obtain ⟨k, hk, hkm, hke⟩ := hm.known body hbody
        obtain ⟨c, hmem, rfl⟩ := List.mem_map.mp hk
        obtain ⟨d, hd, hkey⟩ := List.mem_map.mp ((step_appends hc s).subset hk)
        have hdm : d.merchantId = c'.merchantId :=
          (congrArg CustomerKey.merchantId hkey).trans (hkm.trans hmerchant.symm)
        have hde : d.merchantCustomerId = c'.merchantCustomerId :=
          (congrArg CustomerKey.externalId hkey).trans (hke.trans hexternal)
        have hid : d.id = c.id := congrArg CustomerKey.id hkey
        rw [external_unique hc' hd hmem' hdm hde] at hid
        exact absurd (hid ▸ hc.customer_fresh c hmem) (not_lt.mpr hnew)
      have hfresh : base.wallet c'.id = none := by
        refine Option.map_eq_none_iff.mpr (List.find?_eq_none.mpr fun c hmem hid => ?_)
        have hold := (hbase.customer_fresh c hmem).trans_le (hm.clock.trans hnew)
        exact absurd (of_decide_eq_true hid) hold.ne
      have hgrown : grown base c' = 0 := by
        unfold grown
        simp [hfresh, hzero]
      rw [hunheard, hgrown]
      exact hrefl 0

theorem mirrors_credit (hm : Mirrors R base h.tables merchantId bodies) (hc : h.tables.Constraints)
    (hclock : h.tables.clock ≤ (h.step s).tables.clock) {row : Customer Cents} {n : Cents} {told : List OutboundPayload}
    (hmem : row ∈ h.tables.customers)
    (hcustomers : ∃ time, (h.step s).tables.customers = setRow (·.id)
      { row with walletBalance := row.walletBalance + n, updatedAt := time } h.tables.customers)
    (htold : ∀ body ∈ told, row.merchantId = merchantId ∧ body.customerId = row.merchantCustomerId)
    (hsum : ∀ a b, R a b → row.merchantId = merchantId → R (a + received row.merchantCustomerId told) (b + n / 100)) :
    Mirrors R base (h.step s).tables merchantId (bodies ++ told) := by
  obtain ⟨time, hset⟩ := hcustomers
  have hkeys : (h.step s).tables.customerKeys = h.tables.customerKeys := by
    unfold Tables.customerKeys
    rw [hset]
    refine map_setRow fun c hc' hid => ?_
    rw [eq_of_key hc.customer_pk hc' hmem hid]
    rfl
  refine ⟨hm.clock.trans hclock, fun body hbody => ?_, fun c' hmem' hmerchant => ?_⟩
  · rw [hkeys]
    rcases List.mem_append.mp hbody with hold | hnew
    · exact hm.known body hold
    · obtain ⟨hrow, hexternal⟩ := htold body hnew
      exact ⟨row.key, List.mem_map_of_mem hmem, hrow, hexternal.symm⟩
  · rw [received_append]
    rw [hset] at hmem'
    rcases mem_setRow.mp hmem' with ⟨rfl, -⟩ | ⟨hold, hid⟩
    · have hgrown : grown base { row with walletBalance := row.walletBalance + n, updatedAt := time } =
          grown base row + n / 100 := by
        unfold grown
        push_cast
        ring
      rw [hgrown]
      exact hsum _ _ (hm.sums row hmem hmerchant) hmerchant
    · have hunheard : received c'.merchantCustomerId told = 0 := received_none fun body hbody hexternal => by
        obtain ⟨hrow, hbody⟩ := htold body hbody
        refine hid ?_
        rw [external_unique hc hold hmem (hmerchant.trans hrow.symm) (hexternal.symm.trans hbody)]
      rw [hunheard, add_zero]
      exact hm.sums c' hold hmerchant

/-- What the endpoint may miss of the step leaves the sums related. -/
def Step.Forgives (R : ℚ → ℚ → Prop) (db : Tables) (s : Step) : Prop :=
  ∀ (a b : ℚ) (n : Cents), ¬ s.Completes db →
    ((∀ payload, s.delivers db = some payload → NonnegIn payload) → 0 ≤ n) → R a b → R a (b + n / 100)

def History.Forgives (R : ℚ → ℚ → Prop) : History → List Step → Prop
  | _, [] => True
  | h, s :: steps => s.Forgives R h.tables ∧ Forgives R (h.step s) steps

/-- A relation between sums that lasts while both grow alike. -/
structure Additive (R : ℚ → ℚ → Prop) : Prop where
  refl : ∀ a, R a a
  add : ∀ a b x, R a b → R (a + x) (b + x)

theorem additive_eq : Additive fun a b : ℚ => a = b := ⟨fun _ => rfl, fun _ _ _ hab => by rw [hab]⟩

theorem additive_le : Additive fun a b : ℚ => a ≤ b := ⟨le_refl, fun _ _ _ hab => by linarith⟩

theorem mirrors_step (hadd : Additive R) (hm : Mirrors R base h.tables r.merchantId bodies)
    (hbase : base.Constraints) (hc : h.tables.Constraints) (hr : Listens h.tables r)
    (hexact : ∀ payload, s.delivers h.tables = some payload → ExactIn h.tables payload)
    (hforgives : s.Forgives R h.tables) :
    Mirrors R base (h.step s).tables r.merchantId (bodies ++ bodiesTo r.url r.secret (s.posts h.tables)) := by
  have hclock := (step_grows h s).clock
  cases moves hc hexact with
  | still posts wallets =>
    rw [posts, show bodiesTo r.url r.secret [] = [] from rfl, List.append_nil]
    exact mirrors_still hm hadd.refl hbase hc (step_constraints hc) hclock wallets
  | credit row n body mem customers customerId amount nonneg posts =>
    obtain ⟨rs, hsub, hposts, hall⟩ := posts
    rw [hposts]
    rcases heard_once hr hsub body with ⟨htold, hmerchant⟩ | ⟨htold, hmissed⟩
    · rw [htold]
      refine mirrors_credit hm hc hclock mem customers (by simp [hmerchant, customerId]) fun a b hab _ => ?_
      rw [← customerId, received_self, amount]
      exact hadd.add a b _ hab
    · rw [htold]
      refine mirrors_credit hm hc hclock mem customers (by simp) fun a b hab hmerchant => ?_
      rw [show received row.merchantCustomerId [] = 0 from rfl, add_zero]
      exact hforgives a b n (fun hdone => hmissed (hall hdone) hmerchant) nonneg hab

theorem Listens.earlier {db' : Tables} (hr : Listens db' r) (hg : Grows db db')
    (hmem : r ∈ db.webhookRegistrations) : Listens db r := by
  refine ⟨hr.active, hr.asked, ?_⟩
  have hsub := hg.registrations.sublist.filter fun x => decide (x.url = r.url ∧ x.secret = r.secret)
  rw [hr.sole, List.sublist_singleton] at hsub
  rcases hsub with hnone | hone
  · have hself := List.filter_eq_nil_iff.mp hnone r hmem
    simp at hself
  · exact hone

theorem mirrors_run (hadd : Additive R) {steps : List Step} (hm : Mirrors R base h.tables r.merchantId bodies)
    (hbase : base.Constraints) (hc : h.tables.Constraints) (hmem : r ∈ h.tables.webhookRegistrations)
    (hr : Listens (h.continue steps).tables r) (hexact : h.Exact steps) (hforgives : h.Forgives R steps) :
    Mirrors R base (h.continue steps).tables r.merchantId (bodies ++ bodiesTo r.url r.secret (h.posts steps)) := by
  induction steps generalizing h bodies with
  | nil =>
    rw [show bodiesTo r.url r.secret (h.posts []) = [] from rfl, List.append_nil]
    exact hm
  | cons s steps ih =>
    have hnow := hr.earlier (continue_grows h (s :: steps)) hmem
    have hnext := mirrors_step hadd hm hbase hc hnow hexact.1 hforgives.1
    have hrest := ih hnext (step_constraints hc) ((step_grows h s).registrations.subset hmem) hr hexact.2
      hforgives.2
    rw [History.posts, bodiesTo_append, ← List.append_assoc]
    exact hrest

theorem forgives_of_completes {steps : List Step} (hdone : h.Completes steps) : h.Forgives (· = ·) steps := by
  induction steps generalizing h with
  | nil => trivial
  | cons s steps ih => exact ⟨fun _ _ _ hnot => absurd hdone.1 hnot, ih hdone.2⟩

theorem forgives_of_nonneg {steps : List Step} (hpos : h.Nonneg steps) : h.Forgives (· ≤ ·) steps := by
  induction steps generalizing h with
  | nil => trivial
  | cons s steps ih =>
    refine ⟨fun a b n _ hn hab => ?_, ih hpos.2⟩
    have hn' : (0 : ℚ) ≤ n := by exact_mod_cast hn hpos.1
    have hcents : (0 : ℚ) ≤ n / 100 := by positivity
    linarith

end Endpoint

theorem run_append (pre steps : List Step) :
    History.run (pre ++ steps) = (History.run pre).continue steps :=
  List.foldl_append

theorem mirrors_history {R : ℚ → ℚ → Prop} (hadd : Additive R) {pre steps : List Step} {r : WebhookRegistration}
    (hexact : (History.run pre).Exact steps) (hmem : r ∈ (History.run pre).tables.webhookRegistrations)
    (hr : Listens (History.run (pre ++ steps)).tables r) (hforgives : (History.run pre).Forgives R steps) :
    Mirrors R (History.run pre).tables (History.run (pre ++ steps)).tables r.merchantId
      (bodiesTo r.url r.secret ((History.run pre).posts steps)) := by
  have hc : (History.run pre).tables.Constraints := continue_constraints Database.empty.constraints pre
  rw [run_append] at hr ⊢
  exact mirrors_run hadd (mirrors_start hadd.refl hc r.merchantId) hc hc hmem hr hexact hforgives

/-- At every registration and after every further history of exact payments in which no call raises behind
the insert of a transaction: for each customer of its merchant, the amounts POSTed to the endpoint add up to
what its wallet has grown by since. -/
theorem notifications_mirror_wallets (pre steps : List Step) (r : WebhookRegistration)
    (hexact : (History.run pre).Exact steps) (hmem : r ∈ (History.run pre).tables.webhookRegistrations)
    (hr : Listens (History.run (pre ++ steps)).tables r) (hdone : (History.run pre).Completes steps) :
    ∀ c ∈ (History.run (pre ++ steps)).tables.customers, c.merchantId = r.merchantId →
      received c.merchantCustomerId (bodiesTo r.url r.secret ((History.run pre).posts steps)) =
        grown (History.run pre).tables c :=
  (mirrors_history additive_eq hexact hmem hr (forgives_of_completes hdone)).sums

/-- Whatever is raised: the amounts POSTed of payments that are not negative never add up to more. -/
theorem notifications_never_overstate (pre steps : List Step) (r : WebhookRegistration)
    (hexact : (History.run pre).Exact steps) (hmem : r ∈ (History.run pre).tables.webhookRegistrations)
    (hr : Listens (History.run (pre ++ steps)).tables r) (hpos : (History.run pre).Nonneg steps) :
    ∀ c ∈ (History.run (pre ++ steps)).tables.customers, c.merchantId = r.merchantId →
      received c.merchantCustomerId (bodiesTo r.url r.secret ((History.run pre).posts steps)) ≤
        grown (History.run pre).tables c :=
  (mirrors_history additive_le hexact hmem hr (forgives_of_nonneg hpos)).sums

/-! ## Two payments after a registration -/

def registering : List Step :=
  [.call (.create ⟨"cust-1", "Ada", none, none, none, []⟩ 7 (.success (.obj [("accountNumber", .str "9901")]))),
    .call (.register ⟨"https://b.example", "0123456789abcdef", ["customer.payment_received"]⟩ 7)]

def fundingSteps : List Step :=
  [.call (.receive quiet (samplePayment "R1" "9901" 5)), .call (.receive quiet (samplePayment "R2" "9901" 7))]

def endpoint : WebhookRegistration :=
  ⟨2, 7, "https://b.example", "0123456789abcdef", ["customer.payment_received"], true⟩

theorem fundingSteps_exact : (History.run registering).Exact fundingSteps := by
  refine ⟨fun payload hs => ?_, fun payload hs => ?_, trivial⟩
  · cases hs
    intro requestId p hk
    cases hk
    refine ⟨500, by norm_num [Decimal.IsScaled, Decimal.toRat, Decimal.num, signed], ?_⟩
    intro account row hc
    have hrow : row = _ := List.mem_singleton.mp hc.mem
    rw [hrow]
    decide
  · cases hs
    intro requestId p hk
    cases hk
    refine ⟨700, by norm_num [Decimal.IsScaled, Decimal.toRat, Decimal.num, signed], ?_⟩
    intro account row hc
    have hrow : row = _ := List.mem_singleton.mp hc.mem
    rw [hrow]
    decide

theorem endpoint_mem : endpoint ∈ (History.run registering).tables.webhookRegistrations :=
  List.mem_singleton.mpr rfl

theorem endpoint_listens : Listens (History.run (registering ++ fundingSteps)).tables endpoint :=
  ⟨rfl, by simp [endpoint, outboundEventPaymentReceived], by decide +kernel⟩

theorem fundingSteps_completes : (History.run registering).Completes fundingSteps := by
  refine ⟨fun e he => ?_, fun e he => ?_, trivial⟩
  · cases he
  · cases he

theorem fundingSteps_nonneg : (History.run registering).Nonneg fundingSteps := by
  refine ⟨fun payload hs => ?_, fun payload hs => ?_, trivial⟩
  · cases hs
    intro requestId p hk
    cases hk
    decide
  · cases hs
    intro requestId p hk
    cases hk
    decide

theorem funded_mem : ∃ c ∈ (History.run (registering ++ fundingSteps)).tables.customers, c.merchantId = 7 := by
  decide +kernel

theorem notifications_mirror_both_payments : ∃ c ∈ (History.run (registering ++ fundingSteps)).tables.customers,
    received c.merchantCustomerId
      (bodiesTo "https://b.example" "0123456789abcdef" ((History.run registering).posts fundingSteps)) =
        grown (History.run registering).tables c := by
  obtain ⟨c, hc, hm⟩ := funded_mem
  exact ⟨c, hc, notifications_mirror_wallets registering fundingSteps endpoint fundingSteps_exact endpoint_mem
    endpoint_listens fundingSteps_completes c hc hm⟩

theorem both_payments_not_overstated : ∃ c ∈ (History.run (registering ++ fundingSteps)).tables.customers,
    received c.merchantCustomerId
      (bodiesTo "https://b.example" "0123456789abcdef" ((History.run registering).posts fundingSteps)) ≤
        grown (History.run registering).tables c := by
  obtain ⟨c, hc, hm⟩ := funded_mem
  exact ⟨c, hc, notifications_never_overstate registering fundingSteps endpoint fundingSteps_exact endpoint_mem
    endpoint_listens fundingSteps_nonneg c hc hm⟩

end LdbBackend
