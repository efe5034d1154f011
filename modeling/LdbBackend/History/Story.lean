import LdbBackend.Lib.Rounding
import LdbBackend.History.Agreement
import LdbBackend.Payments.Order
import LdbBackend.Delivery.Posted

/-!
# The status of a payment and the balance it leaves

The status compares one payment with the target; the outstanding balance compares everything received
with it (`Story`). So a payment that reaches the target on its own leaves nothing outstanding, but a
payment below the target is PARTIAL even when it completes the sum.
-/

namespace LdbBackend

open Fixed Effects Table

/-- A payment that the payload carries has a positive amount. -/
def PositiveIn (payload : Json) : Prop :=
  ∀ requestId p, kindOf payload = .payment requestId p → Decimal.zero < p.amount

/-- An outbound POST has a body that satisfies `Q`. -/
def Op.Posting (Q : OutboundPayload → Prop) (o : Op) : Prop :=
  ∀ url secret body, o = .post url secret body → Q body

/-- What is said of the payment, delivered to `before`: its status where it is stored, returned and sent,
and the outstanding balance where it is sent and shown. -/
structure Tells (env : Surroundings) (payload : Json) (before : Tables) (accountId merchantId : UUID)
    (response : Response) (status : TransactionStatus) (sent shown : Decimal) : Prop where
  stored : ∃ t, (stateAfter (receive env payload) before).transactions = before.transactions ++ [t] ∧
    t.status = status
  returned : ∃ data, response.data = .payment data ∧ data.status = status
  sent : Prog.Along exec (fun _ => Op.Posting fun body =>
    body.status = status.value ∧ body.outstandingBalance = some sent.str) (receive env payload) before
  shown : ∀ order, ∃ statement,
    getStatement order (stateAfter (receive env payload) before) accountId merchantId = .ok statement ∧
      statement.outstandingBalance = shown

/-- The status and the balances after a payment of `amount` that took the wallet from `w` to `w'`. -/
structure Story (target : Cents) (amount : Decimal) (w w' : Cents) (status : TransactionStatus)
    (sent shown : Decimal) : Prop where
  below : status = .partial_ ↔ amount < Decimal.ofScaled 2 target
  reached : status = .full ∨ status = .overpayment ↔ Decimal.ofScaled 2 target ≤ amount
  sent_owing : Decimal.zero < sent ↔ Decimal.ofScaled 2 w + amount < Decimal.ofScaled 2 target
  sent_settled : sent = Decimal.zero ↔ Decimal.ofScaled 2 target ≤ Decimal.ofScaled 2 w + amount
  shown_owing : Decimal.zero < shown ↔ w' < target
  shown_settled : shown = Decimal.zero ↔ target ≤ w'
  settled : status = .full ∨ status = .overpayment → sent = Decimal.zero ∧ shown = Decimal.zero

/-! ## The two computations -/

section Compare

variable {amount : Decimal} {target : Cents}

theorem status_below_iff (h : Decimal.zero < amount) :
    deriveTransactionStatus amount (some (Decimal.ofScaled 2 target)) = .partial_ ↔
      amount < Decimal.ofScaled 2 target := by
  simp only [deriveTransactionStatus]
  split_ifs with hle hlt
  · simp [← Decimal.not_le_iff_lt, hle]
  · simp [← Decimal.not_le_iff_lt, hle]
  · exact iff_of_true rfl (Decimal.not_le_iff_lt.mp hle)

theorem status_reached_iff (h : Decimal.zero < amount) :
    deriveTransactionStatus amount (some (Decimal.ofScaled 2 target)) = .full ∨
        deriveTransactionStatus amount (some (Decimal.ofScaled 2 target)) = .overpayment ↔
      Decimal.ofScaled 2 target ≤ amount := by
  simp only [deriveTransactionStatus]
  split_ifs with hle hlt
  · simp [hle]
  · simp [hle]
  · simp [hle]

theorem toRat_negated (d : Decimal) : ({ d with neg := !d.neg } : Decimal).toRat = -d.toRat := by
  rw [Decimal.toRat_eq, Decimal.toRat_eq]
  cases d.neg with
  | true => simp
  | false => simp

/-- A difference is positive when it was before the rounding. -/
theorem sub_pos_iff {x y : Decimal} : Decimal.zero < x - y ↔ y < x := by
  show Decimal.zero < Decimal.fix (Decimal.addExact x { y with neg := !y.neg }) ↔ _
  rw [Decimal.lt_iff, Decimal.toRat_zero, Decimal.fix_pos_iff, Decimal.toRat_addExact, toRat_negated,
    Decimal.lt_iff, ← sub_eq_add_neg, sub_pos]

variable {customer : Customer Decimal} {x : Decimal}

theorem outstanding_owing (h : customer.targetAmount = some x) :
    Decimal.zero < (outstandingBalance customer).getD Decimal.zero ↔ customer.walletBalance < x := by
  rw [outstandingBalance, h]
  simp only [Option.map_some, Option.getD_some]
  split_ifs with hpos
  · exact iff_of_true hpos (sub_pos_iff.mp hpos)
  · refine iff_of_false ?_ fun hlt => hpos (sub_pos_iff.mpr hlt)
    decide

theorem outstanding_settled (h : customer.targetAmount = some x) :
    (outstandingBalance customer).getD Decimal.zero = Decimal.zero ↔ x ≤ customer.walletBalance := by
  rw [outstandingBalance, h]
  simp only [Option.map_some, Option.getD_some]
  split_ifs with hpos
  · refine iff_of_false ?_ (Decimal.not_le_iff_lt.mpr (sub_pos_iff.mp hpos))
    intro heq
    rw [heq] at hpos
    exact absurd hpos (by decide)
  · refine iff_of_true rfl ?_
    by_contra hle
    exact hpos (sub_pos_iff.mpr (Decimal.not_le_iff_lt.mp hle))

end Compare

/-! ## What is sent -/

section Sent

variable {env : Surroundings} {requestId payload : Json} {p : Payment} {db : Tables}
  {account : DedicatedAccount} {row : Customer Cents} {Q : OutboundPayload → Prop}

theorem deliver_posting {post : WebhookRegistration → PostOutcome} {body : OutboundPayload} (hQ : Q body)
    (rs : List WebhookRegistration) : (deliver post body rs).All (Op.Posting Q) := by
  induction rs with
  | nil => trivial
  | cons r rs ih =>
    unfold deliver
    split_ifs
    · refine ⟨fun url secret body' ho => ?_, fun _ => ?_⟩
      · cases ho
        exact hQ
      · cases post r with
        | response s => exact ih
        | httpError => exact ih
        | raised e => trivial
    · exact ih

theorem emit_posting (post : WebhookRegistration → PostOutcome) (merchantId : UUID)
    {customer : Customer Decimal} {t : Transaction} (hQ : Q (outboundPayload customer account t)) :
    (emitPaymentReceived post merchantId customer account t).All (Op.Posting Q) := by
  refine ⟨nofun, fun _ => ⟨nofun, fun rs => ?_⟩⟩
  show Prog.All _ (if List.isEmpty rs = true then _ else _)
  split_ifs
  · trivial
  · exact deliver_posting hQ rs

theorem findAccount_posting (n : String) (r : Json) : (findAccount n r).All (Op.Posting Q) := by
  have href : (findByRef r).All (Op.Posting Q) := by
    unfold findByRef
    split_ifs
    · exact ⟨nofun, fun _ => trivial⟩
    · trivial
  unfold findAccount
  split_ifs
  · refine ⟨nofun, fun found => ?_⟩
    cases found with
    | some a => trivial
    | none => exact href
  · exact href

theorem credit_posting (eventType : String)
    (hQ : ∀ t, t.status = p.creditStatus row → Q (outboundPayload (p.creditedOwner row) account t)) :
    Prog.Along exec (fun _ => Op.Posting Q)
      (creditPayment env requestId eventType payload p account row.load) db := by
  refine ⟨nofun, fun t db₁ he => ⟨nofun, fun _ _ _ => ⟨nofun, fun _ db₃ _ => ?_⟩⟩⟩
  have hstatus : t.status = p.creditStatus row :=
    (NewTransaction.row_ok (createTransaction_ok_iff.mp he).1).status
  have hemit := emit_posting env.post row.merchantId (hQ t hstatus)
  exact (hemit.along (fun _ _ ho => ho) db₃).bind fun _ _ _ => trivial

theorem settle_posting (h : db.Constraints) (eventType : String) (hc : Credits p db account row)
    (hQ : ∀ t, t.status = p.creditStatus row → Q (outboundPayload (p.creditedOwner row) account t)) :
    Prog.Along exec (fun _ => Op.Posting Q) (settlePayment env requestId eventType payload p) db := by
  have hfind := findAccount_posting (Q := Q) p.aliasAccountNumber p.aliasAccountReference
  refine (hfind.along (fun _ _ ho => ho) db).bind fun found db' hrun => ?_
  have hfound := outcome_findAccount h p.aliasAccountNumber p.aliasAccountReference
  have hroute : Prog.run exec (findAccount p.aliasAccountNumber p.aliasAccountReference) db =
      (.ok (some account), db) :=
    Prod.ext ((congrArg Outcome.result hfound).trans (congrArg Except.ok hc.route))
      (congrArg Outcome.state hfound)
  rw [hroute, Prod.mk.injEq] at hrun
  obtain ⟨hresult, rfl⟩ := hrun
  obtain rfl := Except.ok.inj hresult
  obtain ⟨row', hrow', hid, hfetch⟩ := owner_row h (route_mem hc.route)
  obtain rfl := eq_of_key h.customer_pk hrow' hc.mem (hid.trans hc.owner.symm)
  refine ⟨nofun, fun customer db₁ he => ?_⟩
  rw [hfetch] at he
  cases he
  show Prog.Along exec _ (if account.status ≠ .active then _ else _) _
  rw [if_neg (fun hne => hne hc.active)]
  exact credit_posting eventType hQ

theorem receive_posting (h : db.Constraints) (hk : kindOf payload = .payment requestId p)
    (hfresh : db.processed requestId.text = false) (hc : Credits p db account row)
    (hQ : ∀ t, t.status = p.creditStatus row → Q (outboundPayload (p.creditedOwner row) account t)) :
    Prog.Along exec (fun _ => Op.Posting Q) (receive env payload) db := by
  rw [receive_eq, hk]
  refine ⟨nofun, fun processed db' he => ?_⟩
  cases he
  show Prog.Along exec _ (if db.processed requestId.text = true then _ else _) db
  rw [hfresh, if_neg Bool.false_ne_true]
  have hsettle : Prog.Along exec (fun _ => Op.Posting Q) (settlePayment env requestId
      nombaPaymentSuccessEvent payload (p.withReference env.reference)) db :=
    settle_posting h _ ⟨hc.route, hc.active, hc.mem, hc.owner⟩ hQ
  exact hsettle.bind fun _ _ _ => ⟨nofun, fun _ _ _ => trivial⟩

end Sent

/-! ## A run of payments -/

section Run

variable {p : Payment} {row c : Customer Cents} {db : Tables} {target w : Cents}

theorem toRat_walletAfter_exact (p : Payment) (row : Customer Cents) :
    (Decimal.addExact (Decimal.ofScaled 2 row.walletBalance) p.amount).toRat =
      row.walletBalance / 10 ^ 2 + p.amount.toRat := by
  rw [Decimal.toRat_addExact, Decimal.toRat_ofScaled]

/-- An amount of cents that the wallet and the payment reach together, the sum in memory and the saved
wallet reach. -/
theorem reached_together {n : Cents} (hn : n.natAbs < 10 ^ prec)
    (h : (n : ℚ) / 10 ^ 2 ≤ row.walletBalance / 10 ^ 2 + p.amount.toRat) :
    Decimal.ofScaled 2 n ≤ p.walletAfter row ∧
      ∀ w, numericColumn (p.walletAfter row) = .ok w → n ≤ w := by
  have hscaled := Decimal.isScaled_ofScaled 2 n
  have hexact : (Decimal.ofScaled 2 n).toRat ≤
      (Decimal.addExact (Decimal.ofScaled 2 row.walletBalance) p.amount).toRat := by
    rw [toRat_walletAfter_exact, Decimal.toRat_ofScaled]
    exact h
  have hfix : (Decimal.ofScaled 2 n).toRat ≤ (p.walletAfter row).toRat :=
    Decimal.le_fix hscaled hn hexact
  exact ⟨Decimal.le_iff.mpr hfix, fun w hw => Decimal.le_toColumn hscaled hfix (numericColumn_ok_iff.mp hw)⟩

theorem wallet_nonneg (hrow : 0 ≤ row.walletBalance) (hpos : Decimal.zero < p.amount)
    (hw : numericColumn (p.walletAfter row) = .ok w) : 0 ≤ w := by
  rw [Decimal.lt_iff, Decimal.toRat_zero] at hpos
  have hbalance : (0 : ℚ) ≤ (row.walletBalance : ℚ) / 10 ^ 2 := by
    have : (0 : ℚ) ≤ row.walletBalance := by exact_mod_cast hrow
    positivity
  refine (reached_together (n := 0) (by unfold prec; norm_num) ?_).2 w hw
  push_cast
  linarith

/-- A payment that reaches the target alone reaches it together with the wallet. -/
theorem reached_alone (hrow : 0 ≤ row.walletBalance) {n : Cents} (hamount : decimalField p.amount = .ok n)
    (htarget : 0 < target) (h : Decimal.ofScaled 2 target ≤ p.amount) :
    Decimal.ofScaled 2 target ≤ p.walletAfter row ∧
      ∀ w, numericColumn (p.walletAfter row) = .ok w → target ≤ w := by
  have hquantized := decimalField_ok_iff.mp hamount
  rw [Decimal.le_iff, Decimal.toRat_ofScaled] at h
  have hle : target ≤ n := by
    refine (NearestEven.of_int target).mono (Decimal.quantize_nearest hquantized) ?_
    rw [← div_le_iff₀ (by norm_num)]
    exact h
  have hdigits : target.natAbs < 10 ^ prec := by
    rw [Decimal.natAbs_lt_prec htarget.le]
    have hn := (Decimal.natAbs_lt_prec (htarget.le.trans hle)).mp (Decimal.quantize_lt hquantized)
    exact lt_of_le_of_lt hle hn
  refine reached_together hdigits (h.trans ?_)
  have : (0 : ℚ) ≤ row.walletBalance := by exact_mod_cast hrow
  exact le_add_of_nonneg_left (by positivity)

/-- The customer `row` is still there, with the same target and nothing overdrawn. -/
def Kept (row : Customer Cents) (db : Tables) : Prop :=
  ∃ c ∈ db.customers, c.id = row.id ∧ c.merchantId = row.merchantId ∧
    c.targetAmount = row.targetAmount ∧ 0 ≤ c.walletBalance

theorem kept_receive (h : db.Constraints) (hkept : Kept row db) (env : Surroundings) {payload : Json}
    (hpos : PositiveIn payload) : Kept row (stateAfter (receive env payload) db) := by
  have hd : Delivers env payload db (outcomeOf (receive env payload) db) := delivers h
  have hposted := hd.posted
  show Kept row (outcomeOf (receive env payload) db).state
  generalize (outcomeOf (receive env payload) db).state = db' at hposted ⊢
  obtain ⟨c, hc, hid, hmerchant, htarget, hwallet⟩ := hkept
  have hsame : db'.customers = db.customers → Kept row db' :=
    fun hcustomers => ⟨c, hcustomers ▸ hc, hid, hmerchant, htarget, hwallet⟩
  rcases hposted with ⟨hun, -⟩ | ⟨requestId, p, t, hposts, hposted⟩
  · exact hsame hun.customers
  · cases hposted.lands with
    | held _ _ _ _ _ customers => exact hsame customers
    | unsaved _ _ _ _ customers => exact hsame customers
    | @saved _ owner wallet time credit _ balance _ customers =>
      have hpayment : Decimal.zero < p.amount := hpos _ _ hposts.kind
      by_cases howner : owner.id = c.id
      · obtain rfl := eq_of_key h.customer_pk credit.mem hc howner
        have hnonneg : 0 ≤ wallet := wallet_nonneg (p := p) hwallet hpayment balance
        refine ⟨{ owner with walletBalance := wallet, updatedAt := time }, ?_, hid, hmerchant, htarget, hnonneg⟩
        rw [customers]
        exact mem_setRow.mpr (.inl ⟨rfl, owner, credit.mem, rfl⟩)
      · refine ⟨c, ?_, hid, hmerchant, htarget, hwallet⟩
        rw [customers]
        exact mem_setRow.mpr (.inr ⟨hc, Ne.symm howner⟩)

theorem kept_deliverAll (h : db.Constraints) (hkept : Kept row db) (earlier : List (Surroundings × Json))
    (hpos : ∀ d ∈ earlier, PositiveIn d.2) :
    (deliverAll db earlier).Constraints ∧ Kept row (deliverAll db earlier) := by
  induction earlier generalizing db with
  | nil => exact ⟨h, hkept⟩
  | cons d earlier ih =>
    have hstep := kept_receive h hkept d.1 (hpos d List.mem_cons_self)
    exact ih (run_constraints _ h) hstep fun d' hd' => hpos d' (List.mem_cons_of_mem _ hd')

end Run

section Last

variable {env : Surroundings} {requestId payload : Json} {p : Payment} {db : Tables}
  {account : DedicatedAccount} {row : Customer Cents} {target : Cents} {response : Response}

theorem load_target (htarget : row.targetAmount = some target) :
    row.load.targetAmount = some (Decimal.ofScaled 2 target) := by
  rw [Customer.load_targetAmount, htarget]
  rfl

/-- A credit that was stored, told by its status and by both balances. -/
theorem story_credited {n w' : Cents} {time : Time} (hpos : Decimal.zero < p.amount)
    (htarget : row.targetAmount = some target) (hpositive : 0 < target) (hwallet : 0 ≤ row.walletBalance)
    (hamount : decimalField p.amount = .ok n) (hw' : numericColumn (p.walletAfter row) = .ok w') :
    Story target p.amount row.walletBalance w' (p.creditStatus row)
      ((outstandingBalance (p.creditedOwner row)).getD Decimal.zero)
      ((outstandingBalance (Customer.load { row with walletBalance := w', updatedAt := time })).getD
        Decimal.zero) := by
  have hload := load_target htarget
  have hstatus : p.creditStatus row = deriveTransactionStatus p.amount (some (Decimal.ofScaled 2 target)) := by
    rw [Payment.creditStatus, hload]
  have hcredited : (p.creditedOwner row).targetAmount = some (Decimal.ofScaled 2 target) := hload
  have hshown : (Customer.load { row with walletBalance := w', updatedAt := time }).targetAmount =
      some (Decimal.ofScaled 2 target) := hload
  constructor
  · rw [hstatus]
    exact status_below_iff hpos
  · rw [hstatus]
    exact status_reached_iff hpos
  · exact outstanding_owing hcredited
  · exact outstanding_settled hcredited
  · exact (outstanding_owing hshown).trans Decimal.ofScaled_lt_iff
  · exact (outstanding_settled hshown).trans Decimal.ofScaled_le_iff
  · intro hreached
    obtain ⟨hsum, hsaved⟩ := reached_alone hwallet hamount hpositive ((status_reached_iff hpos).mp (hstatus ▸ hreached))
    exact ⟨(outstanding_settled hcredited).mpr hsum,
      (outstanding_settled hshown).mpr (Decimal.ofScaled_le_iff.mpr (hsaved w' hw'))⟩

theorem tells_story (h : db.Constraints) (hk : kindOf payload = .payment requestId p)
    (hpos : Decimal.zero < p.amount) (hfresh : db.processed requestId.text = false)
    (hc : Credits p db account row) (htarget : row.targetAmount = some target) (hpositive : 0 < target)
    (hwallet : 0 ≤ row.walletBalance)
    (hrun : (Prog.run exec (receive env payload) db).1 = .ok response) :
    ∃ status sent shown w', (stateAfter (receive env payload) db).wallet row.id = some w' ∧
      Tells env payload db account.id row.merchantId response status sent shown ∧
      Story target p.amount row.walletBalance w' status sent shown := by
  have hreceived : Prog.run exec (receive env payload) db =
      (.ok response, stateAfter (receive env payload) db) := Prod.ext hrun rfl
  obtain ⟨result, db₂, evs, hs, rfl, hafter⟩ := receive_settled h hk hfresh hreceived
  have hc' : Credits (p.withReference env.reference) db account row := ⟨hc.route, hc.active, hc.mem, hc.owner⟩
  cases hs with
  | held hold insert => exact (hold.not_credits hc' rfl).elim
  | @credited account' row' t db₁ w' expected credit wallet_ok target_ok emit =>
    obtain ⟨rfl, rfl⟩ := hc'.unique h credit.toCredits rfl
    obtain ⟨hrow, -, -, rfl⟩ := createTransaction_ok_iff.mp credit.insert
    have hr := NewTransaction.row_ok hrow
    have hcredited : (p.creditedOwner row).targetAmount = some (Decimal.ofScaled 2 target) := load_target htarget
    set owner : Customer Cents := { row with walletBalance := w', updatedAt := db.clock + 1 }
    set after := stateAfter (receive env payload) db
    have hmem : owner ∈ after.customers := by
      rw [hafter]
      exact mem_setRow.mpr (.inl ⟨rfl, row, credit.mem, rfl⟩)
    have hc₂ : after.Constraints := run_constraints _ h
    have haccount : account ∈ after.dedicatedAccounts := by
      rw [hafter]
      exact route_mem hc.route
    refine ⟨p.creditStatus row, (outstandingBalance (p.creditedOwner row)).getD Decimal.zero,
      (outstandingBalance owner.load).getD Decimal.zero, w', wallet_of_mem hc₂ hmem, ?_,
      story_credited hpos htarget hpositive hwallet hr.amount wallet_ok⟩
    constructor
    · refine ⟨t, ?_, hr.status⟩
      show after.transactions = db.transactions ++ [t]
      rw [hafter]
      rfl
    · exact ⟨_, rfl, rfl⟩
    · refine receive_posting h hk hfresh hc fun t' ht' => ⟨?_, ?_⟩
      · exact congrArg TransactionStatus.value ht'
      · show (outstandingBalance (p.creditedOwner row)).map Decimal.str = _
        rw [outstandingBalance, hcredited]
        rfl
    · intro order
      obtain ⟨owner', hmem', hid', hfor⟩ := accountFor_owner (h := ⟨after, []⟩) hc₂ haccount
      obtain rfl := eq_of_key hc₂.customer_pk hmem' hmem (hid'.trans hc.owner.symm)
      exact ⟨_, by rw [getStatement, hfor]; rfl, rfl⟩

end Last

/-- After any positive payments, one more payment into the active account of a customer with a positive
target and a first wallet of zero: it is PARTIAL exactly when it is below the target by itself, a balance
is outstanding exactly while the wallet is below the target, and a payment that is FULL or OVERPAYMENT
leaves nothing outstanding. -/
theorem status_against_outstanding (db : Database) (row : Customer Cents) (target : Cents)
    (earlier : List (Surroundings × Json)) (env : Surroundings) (payload requestId : Json) (p : Payment)
    (account : DedicatedAccount) (response : Response) (hrow : row ∈ db.tables.customers)
    (htarget : row.targetAmount = some target) (hpositive : 0 < target) (hempty : row.walletBalance = 0)
    (hearlier : ∀ d ∈ earlier, PositiveIn d.2) (hkind : kindOf payload = .payment requestId p)
    (hpos : Decimal.zero < p.amount)
    (hfresh : (deliverAll db.tables earlier).processed requestId.text = false)
    (hroute : p.route (deliverAll db.tables earlier) = some account) (hactive : account.status = .active)
    (howner : account.customerId = row.id)
    (hrun : (Prog.run exec (receive env payload) (deliverAll db.tables earlier)).1 = .ok response) :
    ∃ status sent shown w w', (deliverAll db.tables earlier).wallet row.id = some w ∧
      (deliverAll db.tables (earlier ++ [(env, payload)])).wallet row.id = some w' ∧
      Tells env payload (deliverAll db.tables earlier) account.id row.merchantId response status sent shown ∧
      Story target p.amount w w' status sent shown := by
  have hstart : Kept row db.tables := ⟨row, hrow, rfl, rfl, rfl, hempty.ge⟩
  obtain ⟨hc, c, hmem, hid, hmerchant, htarget', hwallet⟩ :=
    kept_deliverAll db.constraints hstart earlier hearlier
  have hlast : deliverAll db.tables (earlier ++ [(env, payload)]) =
      stateAfter (receive env payload) (deliverAll db.tables earlier) := by
    rw [deliverAll, List.foldl_append]
    rfl
  obtain ⟨status, sent, shown, w', hafter, htells, hstory⟩ := tells_story hc hkind hpos hfresh
    ⟨hroute, hactive, hmem, hid.trans howner.symm⟩ (htarget'.trans htarget) hpositive hwallet hrun
  have hbefore := wallet_of_mem hc hmem
  rw [hid] at hbefore hafter
  rw [hmerchant] at htells
  exact ⟨status, sent, shown, c.walletBalance, w', hbefore, hlast ▸ hafter, htells, hstory⟩

/-! ## Sixty, then forty, against a target of a hundred -/

/-- The customer and its account, after a payment of sixty. -/
theorem sixty_paid : ∃ row ∈ (provisioned (some ⟨false, 100, 0⟩)).tables.customers, ∃ account,
    (deliverAll (provisioned (some ⟨false, 100, 0⟩)).tables [(quiet, samplePayment "R1" "9901" 60)]).route
        "9901" .null = some account ∧
      (row.id = 0 ∧ row.merchantId = 7 ∧ row.targetAmount = some 10000 ∧ row.walletBalance = 0) ∧
      account.id = 1 ∧ account.status = .active ∧ account.customerId = 0 := by
  obtain ⟨account, hroute, hcolumns⟩ : ∃ account,
      (deliverAll (provisioned (some ⟨false, 100, 0⟩)).tables
        [(quiet, samplePayment "R1" "9901" 60)]).route "9901" .null = some account ∧
        (account.id, account.status, account.customerId) = (1, .active, 0) :=
    Option.map_eq_some_iff.mp (by decide +kernel)
  simp only [Prod.mk.injEq] at hcolumns
  obtain ⟨row, hrow, hvalues⟩ : ∃ row ∈ (provisioned (some ⟨false, 100, 0⟩)).tables.customers,
      row.id = 0 ∧ row.merchantId = 7 ∧ row.targetAmount = some 10000 ∧ row.walletBalance = 0 := by
    decide +kernel
  exact ⟨row, hrow, account, hroute, hvalues, hcolumns⟩

theorem sixty_positive : ∀ d ∈ [(quiet, samplePayment "R1" "9901" 60)], PositiveIn d.2 := by
  intro d hd requestId p hk
  obtain rfl := List.mem_singleton.mp hd
  cases hk
  decide

/-- The last payment of forty, with what is said of it. -/
theorem status_against_outstanding_at_forty : ∃ accountId merchantId response status sent shown w w',
    Tells quiet (samplePayment "R2" "9901" 40)
        (deliverAll (provisioned (some ⟨false, 100, 0⟩)).tables [(quiet, samplePayment "R1" "9901" 60)])
        accountId merchantId response status sent shown ∧
      Story 10000 ⟨false, 40, 0⟩ w w' status sent shown := by
  obtain ⟨row, hrow, account, hroute, ⟨hid, -, htarget, hwallet⟩, -, hactive, howner⟩ := sixty_paid
  obtain ⟨status, sent, shown, w, w', -, -, htells, hstory⟩ :=
    status_against_outstanding (provisioned (some ⟨false, 100, 0⟩)) row 10000
      [(quiet, samplePayment "R1" "9901" 60)] quiet (samplePayment "R2" "9901" 40) (.str "R2") _ account _
      hrow htarget (by decide) hwallet sixty_positive rfl (by decide) (by decide +kernel) hroute hactive
      (howner.trans hid.symm) rfl
  exact ⟨_, _, _, status, sent, shown, w, w', htells, hstory⟩

theorem getStatement_outstanding {order : RowOrder} {db : Tables} {accountId merchantId : UUID}
    {s : Statement} (h : getStatement order db accountId merchantId = .ok s) : ∃ x,
      accountFor db accountId merchantId = .ok x ∧
        s.outstandingBalance = (outstandingBalance x.2).getD Decimal.zero := by
  unfold getStatement at h
  obtain ⟨x, hfor, hs⟩ := bind_ok_iff.mp h
  exact ⟨x, hfor, by rw [← Except.ok.inj hs]⟩

/-- The forty is PARTIAL and leaves nothing outstanding. -/
theorem partial_payment_settles : ¬ ∀ (db : Database) (row : Customer Cents) (target : Cents)
    (earlier : List (Surroundings × Json)) (env : Surroundings) (payload requestId : Json) (p : Payment)
    (account : DedicatedAccount) (response : Response), row ∈ db.tables.customers →
    row.targetAmount = some target → 0 < target → row.walletBalance = 0 →
    (∀ d ∈ earlier, PositiveIn d.2) → kindOf payload = .payment requestId p →
    Decimal.zero < p.amount → (deliverAll db.tables earlier).processed requestId.text = false →
    p.route (deliverAll db.tables earlier) = some account → account.status = .active →
    account.customerId = row.id →
    (Prog.run exec (receive env payload) (deliverAll db.tables earlier)).1 = .ok response →
    ∃ status sent shown,
      Tells env payload (deliverAll db.tables earlier) account.id row.merchantId response status sent shown ∧
        ∀ outstanding ∈ [sent, shown], (status = .partial_ ↔ Decimal.zero < outstanding) ∧
          (status = .full ∨ status = .overpayment ↔ outstanding = Decimal.zero) := by
  intro hclaim
  obtain ⟨row, hrow, account, hroute, ⟨hid, hmerchant, htarget, hwallet⟩, haccount, hactive, howner⟩ :=
    sixty_paid
  obtain ⟨status, sent, shown, htells, hstory⟩ := hclaim (provisioned (some ⟨false, 100, 0⟩)) row 10000
    [(quiet, samplePayment "R1" "9901" 60)] quiet (samplePayment "R2" "9901" 40) (.str "R2") _ account _
    hrow htarget (by decide) hwallet sixty_positive rfl (by decide) (by decide +kernel) hroute hactive
    (howner.trans hid.symm) rfl
  have hpartial : status = .partial_ := by
    obtain ⟨t, hstored, rfl⟩ := htells.stored
    have hlast := congrArg (fun rows => rows.getLast?.map (·.status)) hstored
    simp only [List.getLast?_concat, Option.map_some] at hlast
    have hvalue : (stateAfter (receive quiet (samplePayment "R2" "9901" 40))
        (deliverAll (provisioned (some ⟨false, 100, 0⟩)).tables
          [(quiet, samplePayment "R1" "9901" 60)])).transactions.getLast?.map (·.status) =
            some .partial_ := by
      decide +kernel
    exact Option.some.inj (hlast.symm.trans hvalue)
  have hsettled : shown = Decimal.zero := by
    obtain ⟨statement, hs, rfl⟩ := htells.shown newestFirst
    obtain ⟨x, hfor, hx⟩ := getStatement_outstanding hs
    rw [haccount, hmerchant] at hfor
    have hvalue : (accountFor (stateAfter (receive quiet (samplePayment "R2" "9901" 40))
        (deliverAll (provisioned (some ⟨false, 100, 0⟩)).tables
          [(quiet, samplePayment "R1" "9901" 60)])) 1 7).toOption.map
            (fun x => (outstandingBalance x.2).getD Decimal.zero) = some Decimal.zero := by
      decide +kernel
    rw [hfor] at hvalue
    rw [hx]
    exact Option.some.inj hvalue
  have hpos := (hstory shown (by simp)).1.mp hpartial
  rw [hsettled] at hpos
  exact absurd hpos (by decide)

end LdbBackend
