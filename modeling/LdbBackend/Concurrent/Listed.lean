import LdbBackend.Concurrent.Credit
import LdbBackend.History.Agreement
import LdbBackend.Lib.Rely
import LdbBackend.Model.Reads
import LdbBackend.Payments.Progress
import LdbBackend.Payments.StoredCredit

/-!
# Statements read while payments are recorded

`get_statement` reads the account, then its customer, then the transactions, and deliveries go on in between. It
reads the wallet before the payments that explain it, and a delivery inserts its transaction before it saves the
wallet; a payment that is not credited is listed as MISDIRECTED and left out of the total. So the wallet of a
statement never exceeds its total, even though updates in flight can make it fall behind.
-/

namespace LdbBackend

open Fixed Effects Table

/-- What a statement counts of a transaction. -/
def Transaction.listed (t : Transaction) : Cents := if t.status = .misdirected then 0 else t.amount

/-- What the statements of the accounts of a customer count. -/
def Tables.listedTotal (db : Tables) (customerId : UUID) : Cents :=
  ((db.received customerId).map Transaction.listed).sum

/-- The wallet of the object and `amount` more are listed among the payments of the customer. -/
def Explained (s : Tables) (customer : Customer Decimal) (amount : Cents) : Prop :=
  ∃ wallet : Int, customer.walletBalance.IsScaled 2 wallet ∧ 0 ≤ wallet ∧
    wallet + amount ≤ s.listedTotal customer.id

/-- What never changes of an account. -/
abbrev AccountKeys : Type := UUID × UUID × String × String × AccountStatus

/-- No wallet exceeds what is listed, and the accounts are still those of `accounts`. -/
structure Explains (accounts : List AccountKeys) (s : Tables) : Prop where
  nonneg : ∀ t ∈ s.transactions, 0 ≤ t.amount
  wallet : ∀ c ∈ s.customers, 0 ≤ c.walletBalance ∧ c.walletBalance ≤ s.listedTotal c.id
  accounts : s.dedicatedAccounts.map DedicatedAccount.keys = accounts

/-- What a call in flight still adds to a wallet. -/
def Adds (s : Tables) : Place → Prop
  | .loaded _ (some customer) | .found customer => Explained s customer 0
  | .inserted _ customer t => Explained s customer t.amount
  | _ => True

section Total

variable {db db' : Tables} {customerId : UUID} {t : Transaction}

theorem listed_nonneg (h : 0 ≤ t.amount) : 0 ≤ t.listed := by
  unfold Transaction.listed
  split_ifs
  · exact le_rfl
  · exact h

theorem listed_le (h : 0 ≤ t.amount) : t.listed ≤ t.amount := by
  unfold Transaction.listed
  split_ifs
  · exact h
  · exact le_rfl

theorem listedTotal_mono (hc : db.Constraints) (hk : Keeps db db') (hpos : ∀ t ∈ db'.transactions, 0 ≤ t.amount)
    (customerId : UUID) : db.listedTotal customerId ≤ db'.listedTotal customerId := by
  obtain ⟨rows, hmem, hrows⟩ := received_keeps hc hk customerId
  rw [Tables.listedTotal, Tables.listedTotal, hrows, List.map_append, List.sum_append]
  refine Int.le_add_of_nonneg_right (List.sum_nonneg fun n hn => ?_)
  obtain ⟨t, ht, rfl⟩ := List.mem_map.mp hn
  exact listed_nonneg (hpos t (hmem t ht))

theorem listedTotal_le (hpos : ∀ t ∈ db.transactions, 0 ≤ t.amount) (customerId : UUID) :
    db.listedTotal customerId ≤ db.receivedTotal customerId := by
  refine List.sum_le_sum fun t ht => ?_
  exact listed_le (hpos t (mem_received.mp ht).1)

/-- A payment to an account of the customer is listed with its amount, unless it is MISDIRECTED. -/
theorem listedTotal_insert {new : NewTransaction} {a : DedicatedAccount} (hknown : Known db a)
    (haccount : t.dedicatedAccountId = some a.id) (he : db.createTransaction new = .ok (t, db')) :
    db'.listedTotal a.customerId = db.listedTotal a.customerId + t.listed := by
  rw [Tables.listedTotal, Tables.listedTotal, received_insert hknown haccount he, List.map_append, List.sum_append]
  simp

end Total

section Explained

variable {accounts : List AccountKeys} {s s' : Tables} {call : Call}
  {t : Transaction} {customer : Customer Decimal} {amount : Cents}

theorem Explained.keeps (h : Explained s customer amount) (hc : s.Constraints) (hk : Keeps s s')
    (hpos : ∀ t ∈ s'.transactions, 0 ≤ t.amount) : Explained s' customer amount := by
  obtain ⟨wallet, hwallet, hnonneg, hle⟩ := h
  exact ⟨wallet, hwallet, hnonneg, hle.trans (listedTotal_mono hc hk hpos _)⟩

theorem Explains.explained (h : Explains accounts s) {row : Customer Cents} (hrow : row ∈ s.customers) :
    Explained s row.load 0 := by
  obtain ⟨hnonneg, hle⟩ := h.wallet row hrow
  exact ⟨row.walletBalance, Decimal.isScaled_ofScaled 2 _, hnonneg, by rw [add_zero]; exact hle⟩

/-- Saving an explained object leaves explained wallets. -/
theorem Explains.save (h : Explains accounts s) (hexplained : Explained s customer 0)
    (he : s.saveCustomer customer = .ok s') :
    ∀ c ∈ s'.customers, 0 ≤ c.walletBalance ∧ c.walletBalance ≤ s.listedTotal c.id := by
  obtain ⟨wallet, hwallet, hnonneg, hle⟩ := hexplained
  obtain ⟨stored, hstored, hrows⟩ := saveCustomer_wallets he
  have hsame : stored = wallet := Decimal.eq_of_toColumn hwallet (numericColumn_ok_iff.mp hstored)
  intro c hc
  rcases hrows c hc with ⟨hid, hbalance⟩ | ⟨hold, -⟩
  · rw [hbalance, hsame, hid]
    exact ⟨hnonneg, by rw [add_zero] at hle; exact hle⟩
  · exact h.wallet c hold

/-- The amount of an inserted payment, as the delivery has it and as it is stored. -/
theorem scaled_of_pays {env : Surroundings} {payload requestId : Json} {p : Payment}
    (hpays : Pays (.receive env payload) t) (hcall : deliveries.call (.receive env payload))
    (kind : kindOf payload = .payment requestId p) : 0 ≤ t.amount ∧ p.amount.IsScaled 2 t.amount := by
  cases hpays with
  | intro kind' request amount =>
    rw [kind] at kind'
    cases kind'
    obtain ⟨n, hn, hscaled⟩ := hcall requestId p kind
    rw [Decimal.eq_of_quantize hscaled (decimalField_ok_iff.mp amount)]
    exact ⟨hn, hscaled⟩

theorem Explained.credit (h : Explained s customer t.amount) (hpos : 0 ≤ t.amount) {d : Decimal}
    (hscaled : d.IsScaled 2 t.amount) (hfits : s.listedTotal customer.id < 10 ^ prec) :
    Explained s { customer with walletBalance := customer.walletBalance + d } 0 := by
  obtain ⟨wallet, hwallet, hnonneg, hle⟩ := h
  have hsum : (0 : Int) ≤ wallet + t.amount := Int.add_nonneg hnonneg hpos
  refine ⟨wallet + t.amount, Decimal.add_exact hwallet hscaled ?_, hsum, by rw [add_zero]; exact hle⟩
  exact (Decimal.natAbs_lt_prec hsum).mpr (lt_of_le_of_lt hle hfits)

/-- A payment of more than nothing is not MISDIRECTED. -/
theorem deriveTransactionStatus_pos {amount : Decimal} (h : Decimal.zero < amount) (target : Option Decimal) :
    deriveTransactionStatus amount target ≠ .misdirected := by
  unfold deriveTransactionStatus
  cases target with
  | none => simp
  | some target =>
    simp only
    split_ifs <;> simp

/-- A payment that is credited is listed with its whole amount. -/
theorem listed_of_derived {d : Decimal} (hpos : 0 ≤ t.amount) (hscaled : d.IsScaled 2 t.amount)
    {target : Option Decimal} (hstatus : t.status = deriveTransactionStatus d target) : t.listed = t.amount := by
  unfold Transaction.listed
  split_ifs with hmisdirected
  · by_contra hne
    refine deriveTransactionStatus_pos ?_ target (hstatus.symm.trans hmisdirected)
    have hgt : (0 : Int) < t.amount := lt_of_le_of_ne hpos hne
    rw [Decimal.lt_iff, Decimal.toRat_zero, hscaled]
    positivity
  · rfl

end Explained

/-! ## One turn -/

section Turn

variable {accounts : List AccountKeys} {s s' : Tables} {tr : Trace} {i : Nat}
  {call : Call} {g : Place} {o : Op} {f : Res o → Place} {r : Res o}

/-- The accounts keep their keys. -/
theorem accounts_next (ha : Acts deliveries s tr i call g o f r s') :
    s'.dedicatedAccounts.map DedicatedAccount.keys = s.dedicatedAccounts.map DedicatedAccount.keys := by
  cases hw : o.writes .dedicatedAccounts with
  | false => rw [(exec_frame ha.run).dedicatedAccounts hw]
  | true =>
    have hrun := ha.run
    have hstanding := ha.standing
    cases o with
    | accountSave a =>
      obtain ⟨-, rfl⟩ := saveAccount_ok_iff.mp (written_ok_iff.mp hrun)
      refine map_setRow fun b hb hid => ?_
      cases ha.turn with
      | wait waits silent => cases silent
      | rename => exact (hstanding.keys b hb hid).symm
    | accountCreate new =>
      cases ha.turn with
      | wait waits silent => cases silent
      | openAccount | openDedicated => exact ha.started.elim
    | customerDelete id => exact absurd rfl (not_delete ha.started ha.turn id)
    | _ => cases hw

/-- A customer is only saved with an explained wallet. -/
theorem saves_explained {c : Customer Decimal} {f : Res (.customerSave c) → Place} {r : Res (.customerSave c)}
    (ha : Acts deliveries s tr i call g (.customerSave c) f r s') (h : Explains accounts s) (hadds : Adds s g) :
    Explained s c 0 := by
  have hfits : s.receivedTotal c.id < 10 ^ prec := ha.allowed
  cases ha.turn with
  | wait waits silent => cases silent
  | @save env payload requestId p account customer t kind =>
    obtain ⟨hpos, hscaled⟩ := scaled_of_pays ha.standing.2.2.2.2 ha.started kind
    exact Explained.credit hadds hpos hscaled (lt_of_le_of_lt (listedTotal_le h.nonneg _) hfits)
  | edit => exact hadds

theorem explains_next (ha : Acts deliveries s tr i call g o f r s') (h : Explains accounts s) (hadds : Adds s g) :
    Explains accounts s' := by
  have hnonneg := amounts_next ha h.nonneg
  have hmono := listedTotal_mono ha.shared.constraints ha.keeps hnonneg
  have hwallets : ∀ c ∈ s'.customers, 0 ≤ c.walletBalance ∧ c.walletBalance ≤ s.listedTotal c.id := by
    cases hw : o.writes .customers with
    | false =>
      rw [(exec_frame ha.run).customers hw]
      exact h.wallet
    | true =>
      cases o with
      | customerSave c => exact h.save (saves_explained ha h hadds) (written_ok_iff.mp ha.run)
      | customerDelete id => exact absurd rfl (not_delete ha.started ha.turn id)
      | customerCreate new =>
        cases ha.turn with
        | wait waits silent => cases silent
        | provide => exact ha.started.elim
      | _ => cases hw
  refine ⟨hnonneg, fun c hc => ⟨(hwallets c hc).1, (hwallets c hc).2.trans (hmono c.id)⟩, ?_⟩
  rw [accounts_next ha]
  exact h.accounts

/-- The turn of one call takes nothing from the others. -/
theorem adds_other (ha : Acts deliveries s tr i call g o f r s') (h : Explains accounts s) {g' : Place}
    (hadds : Adds s g') : Adds s' g' := by
  have hkept : ∀ c n, Explained s c n → Explained s' c n := fun c n hc =>
    hc.keeps ha.shared.constraints ha.keeps (amounts_next ha h.nonneg)
  cases g' with
  | loaded account customer =>
    cases customer with
    | none => trivial
    | some c => exact hkept c 0 hadds
  | found c => exact hkept c 0 hadds
  | inserted account c t => exact hkept c _ hadds
  | _ => trivial

/-- A call that acts adds what its next place says. -/
theorem adds_next (ha : Acts deliveries s tr i call g o f r s') (h : Explains accounts s) (hadds : Adds s g) :
    Adds s' (f r) := by
  have hrun := ha.run
  have hstarted := ha.started
  have hstanding := ha.standing
  cases ha.turn with
  | wait waits silent => cases g <;> trivial
  | check key =>
    cases r with
    | true => trivial
    | false =>
      rcases opening_cases (kindOf _) with hg | hg | hg
      all_goals exact hg ▸ trivial
  | byNumber kind =>
    cases r with
    | none => rcases byRef_cases _ with hg | hg <;> exact hg ▸ trivial
    | some a => trivial
  | load =>
    cases hrun
    cases hfind : s.customers.find? _ with
    | none => trivial
    | some row => exact h.explained (List.mem_of_find?_eq_some hfind)
  | @insert env payload requestId p account customer kind active =>
    obtain ⟨hpays, haccount, hstatus⟩ := pays_of_insert kind hrun
    obtain ⟨hpos, hscaled⟩ := scaled_of_pays hpays hstarted kind
    obtain ⟨wallet, hwallet, hnonneg, hle⟩ := hadds
    refine ⟨wallet, hwallet, hnonneg, ?_⟩
    have howner : customer.id = account.customerId := hstanding.2 customer rfl
    rw [howner] at hle ⊢
    rw [listedTotal_insert hstanding.1 haccount hrun, listed_of_derived hpos hscaled hstatus]
    rw [add_zero] at hle
    exact Int.add_le_add_right hle _
  | resolveById | resolveByExternalId =>
    obtain ⟨hfound, rfl⟩ := answered_ok_iff.mp hrun
    cases r with
    | none => trivial
    | some customer =>
      obtain ⟨row, hrow, -, rfl⟩ := getOrNone_load hfound
      exact h.explained hrow
  | byReference | findAccount | choose | matchById | matchByRef => cases r <;> trivial
  | ignore | hold | suspend | logSuspense | save | logCredit | emit | mark | edit | rename | provide | compensate
  | openAccount | openDedicated | logMatch => trivial

end Turn

/-! ## Reading beside the deliveries -/

/-- What is listed of each customer does not get less. -/
def ListsMore (s s' : Tables) : Prop := ∀ customerId, s.listedTotal customerId ≤ s'.listedTotal customerId

instance : IsPreorder Tables ListsMore where
  refl _ _ := le_rfl
  trans _ _ _ h h' customerId := (h customerId).trans (h' customerId)

abbrev Listing (accounts : List AccountKeys) :
    Protocol.View Op Res Tables Call Place → Prop :=
  Invariant deliveries (fun s _ => Explains accounts s) fun s _ _ _ g => Adds s g

theorem listing_next {accounts : List AccountKeys}
    {v v' : Protocol.View Op Res Tables Call Place} (h : Listing accounts v)
    (hn : service.Next exec deliveries v v') : Listing accounts v' ∧ ListsMore v.state v'.state := by
  constructor
  · exact invariant_next deliveries_harmless (fun _ _ _ _ _ => trivial)
      (fun _ _ _ _ _ _ _ _ _ ha h hadds => ⟨explains_next ha h hadds, adds_next ha h hadds⟩)
      (fun _ _ _ _ _ _ _ _ _ ha h _ _ _ _ _ _ _ hadds => adds_other ha h hadds) h hn
  · cases hn with
    | start c hc => exact fun _ => le_rfl
    | act i c g o f r s' hi hstep hexec hB =>
      obtain ⟨ha, hexplains, -⟩ := h.acts deliveries_harmless hi hstep hexec hB
      exact listedTotal_mono ha.shared.constraints ha.keeps (amounts_next ha hexplains.nonneg)

/-- The pool as deliveries and updates have left it. -/
def Delivering (accounts : List AccountKeys)
    (P : Pool Op Res Err Reply Tables Call) : Prop := ∃ v, service.Views Ends P v ∧ Listing accounts v

section Delivering

variable {accounts : List AccountKeys} {P P' : Pool Op Res Err Reply Tables Call}

theorem Delivering.explains (h : Delivering accounts P) : P.state.Constraints ∧ Explains accounts P.state := by
  obtain ⟨v, hv, hI⟩ := h
  rw [← hv.state]
  exact ⟨hI.shared.1.constraints, hI.shared.2⟩

theorem Delivering.play (h : Delivering accounts P) {ms : List (Move Call Err)}
    (hB : P.Meets exec Call.handler deliveries ms) (hplay : P.play exec Call.handler ms = some P') :
    Delivering accounts P' ∧ ListsMore P.state P'.state := by
  obtain ⟨v, hv, hI⟩ := h
  have hcall : ∀ call, deliveries.call call → call.scheduled := fun call h => by
    cases call with
    | receive _ _ | update _ _ _ _ => trivial
    | _ => exact h.elim
  obtain ⟨hdelivering, hmore, -⟩ := play_under (fun call hc => follows_handler (hcall call hc))
    (fun _ _ => listing_next) hv hI hB hplay
  exact ⟨hdelivering, hmore⟩

end Delivering

/-- The only account of a customer has all that the customer received. -/
theorem received_one {s : Tables} {a : DedicatedAccount} (hone : (s.dedicatedAccounts.map (·.customerId)).Nodup)
    (ha : a ∈ s.dedicatedAccounts) : s.received a.customerId = transactionsOf s a.id := by
  refine List.filter_congr fun t _ => ?_
  rw [Bool.eq_iff_iff, List.any_eq_true]
  simp only [decide_eq_true_eq]
  constructor
  · rintro ⟨b, hb, howner, htb⟩
    rw [eq_of_key hone hb ha howner] at htb
    exact htb
  · exact fun hta => ⟨a, ha, rfl, hta⟩

/-- The rows that a statement adds up. -/
theorem sum_listed (rows : List Transaction) : (rows.map Transaction.listed).sum =
    ((rows.filter (·.status ≠ .misdirected)).map (·.amount)).sum := by
  induction rows with
  | nil => rfl
  | cons t rows ih =>
    by_cases hstatus : t.status = .misdirected
    · simp [Transaction.listed, hstatus, ih]
    · simp [Transaction.listed, hstatus, ih]

/-- For any number of deliveries and updates, interleaved in any order and killed anywhere, and a statement whose
queries are answered at any three moments of the run: its wallet is not more than its total. -/
theorem statement_never_overstates (db : Database)
    (hone : (db.tables.dedicatedAccounts.map (·.customerId)).Nodup)
    (hamounts : ∀ t ∈ db.tables.transactions, 0 ≤ t.amount)
    (hwallets : ∀ c ∈ db.tables.customers, 0 ≤ c.walletBalance ∧ c.walletBalance ≤ db.tables.listedTotal c.id)
    (first second third : List (Move Call Err)) (hmeets : Meets deliveries db.tables (first ++ (second ++ third)))
    (P₁ P₂ P₃ : Pool Op Res Err Reply Tables Call) (h₁ : play db.tables first = some P₁)
    (h₂ : P₁.play exec Call.handler second = some P₂) (h₃ : P₂.play exec Call.handler third = some P₃)
    (order : RowOrder) (accountId merchantId : UUID) (statement : Statement)
    (hread : getStatementAcross order P₁.state P₂.state P₃.state accountId merchantId = .ok statement)
    (hfits : (((transactionsOf P₃.state accountId).filter (·.status ≠ .misdirected)).map (·.amount)).sum < 10 ^ prec) :
    statement.walletBalance ≤ statement.totalReceived := by
  set accounts := db.tables.dedicatedAccounts.map DedicatedAccount.keys with haccounts
  obtain ⟨hmeets₁, hrest⟩ := Pool.Meets.append hmeets h₁
  obtain ⟨hmeets₂, hmeets₃⟩ := Pool.Meets.append hrest h₂
  have hinit : Delivering accounts (Pool.init db.tables) :=
    ⟨_, Protocol.Views.init _, Invariant.init db.constraints ⟨hamounts, hwallets, rfl⟩⟩
  obtain ⟨hdelivering₁, -⟩ := hinit.play hmeets₁ h₁
  obtain ⟨hdelivering₂, -⟩ := hdelivering₁.play hmeets₂ h₂
  obtain ⟨hdelivering₃, hmore⟩ := hdelivering₂.play hmeets₃ h₃
  obtain ⟨-, hfound⟩ := hdelivering₁.explains
  obtain ⟨-, howned⟩ := hdelivering₂.explains
  obtain ⟨-, hlisted⟩ := hdelivering₃.explains
  unfold getStatementAcross at hread
  cases hfor : accountForAcross P₁.state P₂.state accountId merchantId with
  | error e =>
    rw [hfor] at hread
    cases hread
  | ok owned =>
    obtain ⟨account, customer⟩ := owned
    rw [hfor] at hread
    cases hread
    obtain ⟨⟨hmem, rfl⟩, row, hrow, howner, rfl⟩ := accountForAcross_ok hfor
    -- the account is still there, and still the only one of its customer
    obtain ⟨b, hb, hkeys⟩ : ∃ b ∈ P₃.state.dedicatedAccounts, b.keys = account.keys := by
      refine List.mem_map.mp ?_
      rw [hlisted.accounts, ← hfound.accounts]
      exact List.mem_map_of_mem hmem
    have hone₃ : (P₃.state.dedicatedAccounts.map (·.customerId)).Nodup := by
      have howners : ∀ s : Tables, s.dedicatedAccounts.map (·.customerId) =
          (s.dedicatedAccounts.map DedicatedAccount.keys).map fun keys => keys.2.1 := fun s => by
        rw [List.map_map]
        rfl
      rw [howners, hlisted.accounts, haccounts, ← howners]
      exact hone
    have hrows : transactionsOf P₃.state account.id = P₃.state.received row.id := by
      rw [howner, ← keys_owner hkeys, ← keys_id hkeys, received_one hone₃ hb]
    have htotal := totalReceived_exact (order.perm (transactionsOf P₃.state account.id))
      (fun t ht => hlisted.nonneg t (List.mem_of_mem_filter ht)) hfits
    have hwallet := (howned.wallet row hrow).2.trans (hmore row.id)
    rw [Tables.listedTotal, ← hrows, sum_listed] at hwallet
    exact (isScaled_le_iff (Decimal.isScaled_ofScaled 2 row.walletBalance) htotal).mpr hwallet

/-- A delivery, up to its inserted transaction. -/
def inserting : List (Move Call Err) :=
  .start (.receive quiet (samplePayment "R1" "9901" 5)) :: List.replicate 4 (.advance 0)

/-- The statement is begun before the payment, and sees its transaction but not yet its money. -/
theorem statement_never_overstates_while_inserting : ∃ (P : Pool Op Res Err Reply Tables Call)
    (statement : Statement), play (provisioned none).tables inserting = some P ∧
      getStatementAcross newestFirst (provisioned none).tables (provisioned none).tables P.state 1 7 = .ok statement ∧
      statement.walletBalance ≤ statement.totalReceived := by
  have hrun : ((play (provisioned none).tables inserting).map fun P =>
      (getStatementAcross newestFirst (provisioned none).tables (provisioned none).tables P.state 1 7).isOk &&
        decide ((((transactionsOf P.state 1).filter (·.status ≠ .misdirected)).map (·.amount)).sum < 10 ^ prec)) =
      some true := by decide +kernel
  obtain ⟨P, hP, hread⟩ := Option.map_eq_some_iff.mp hrun
  obtain ⟨hok, hfits⟩ := Bool.and_eq_true_iff.mp hread
  obtain ⟨statement, hstatement⟩ := exists_ok_of_isOk hok
  have hmeets : Meets deliveries (provisioned none).tables ([] ++ ([] ++ inserting)) := by
    refine .cons five_delivers rfl ?_
    iterate 3 refine .cons (fun c o k h => by cases h; trivial) rfl ?_
    exact .cons (fun c o k h => by cases h; trivial) rfl trivial
  refine ⟨P, statement, hP, hstatement, ?_⟩
  exact statement_never_overstates (provisioned none) (by decide) nofun (by decide) [] [] inserting hmeets _ _ P rfl
    rfl hP newestFirst 1 7 statement hstatement (of_decide_eq_true hfits)

end LdbBackend
