import LdbBackend.Concurrent.Frame
import LdbBackend.Payments.Wallet

/-!
# One account for every customer

`create` and `create_dedicated` look for an account before Nomba is called and insert one after, so both
may insert for one customer. What keeps the second out is the unique reference of an account: it is the
external id of the customer (`Accounted`), every object in flight has the external id of its row
(`Named`), and no statement changes one. Nothing is paid while only these calls run, so the compensating
delete takes no transaction along.
-/

namespace LdbBackend

open Fixed Effects Table

/-- The calls that write customers and accounts for a merchant. -/
def Call.provisions : Call → Prop
  | .create _ _ _ | .createDedicated _ _ _ | .update _ _ _ _ => True
  | _ => False

/-- Nothing has been paid. -/
def provisioning : Assumption Op Res Tables Call where
  call := Call.provisions
  step _ s _ _ _ := s.transactions = []

/-- The row of the object has its external id. -/
def Named (s : Tables) (customer : Customer Decimal) : Prop :=
  customer.id < s.clock ∧ ∀ row ∈ s.customers, row.id = customer.id →
    row.merchantCustomerId = customer.merchantCustomerId

/-- What a call knows of its customer. -/
def Prepared (s : Tables) (call : Call) : Place → Prop
  | .found customer | .chosen customer => Named s customer
  | .pending customer => Named s customer ∧ ∀ body merchantId nomba,
      call = .create body merchantId nomba → customer.merchantCustomerId = body.merchantCustomerId
  | _ => True

structure Accounted (past s : Tables) : Prop where
  reference : ∀ a ∈ s.dedicatedAccounts, ∀ c ∈ s.customers, c.id = a.customerId →
    a.accountRef = c.merchantCustomerId
  number : ∀ a ∈ s.dedicatedAccounts, ' ' ∉ a.accountNumber.toList
  past : ∀ a ∈ past.dedicatedAccounts, Known s a

theorem keys_number {a b : DedicatedAccount} (h : a.keys = b.keys) : a.accountNumber = b.accountNumber :=
  congrArg (fun k => k.2.2.1) h

theorem keys_ref {a b : DedicatedAccount} (h : a.keys = b.keys) : a.accountRef = b.accountRef :=
  congrArg (fun k => k.2.2.2.1) h

theorem no_space_removeSpaces (text : String) : ' ' ∉ (removeSpaces text).toList := by
  simp [removeSpaces]

/-! ## One turn -/

section Turn

variable {past s s' : Tables} {tr : Trace} {i : Nat} {call : Call} {g : Place} {o : Op}
  {f : Res o → Place} {r : Res o} {customer : Customer Decimal}

theorem provisioning_harmless : Harmless provisioning := by
  intro call s tr i id _ hpaid g f _ a _ _ t ht
  have hnone : s.transactions = [] := hpaid
  rw [hnone] at ht
  cases ht

/-- A row of a customer after a turn is an old one with its external id, or the next one. -/
theorem customers_named (ha : Acts provisioning s tr i call g o f r s') (h : Prepared s call g) :
    ∀ c ∈ s'.customers,
      (∃ row ∈ s.customers, row.id = c.id ∧ row.merchantCustomerId = c.merchantCustomerId) ∨
        c.id = s.clock := by
  have hrun := ha.run
  have hstarted := ha.started
  have hturn := ha.turn
  intro c hc
  cases hw : o.writes .customers with
  | false =>
    rw [(exec_frame hrun).customers hw] at hc
    exact .inl ⟨c, hc, rfl, rfl⟩
  | true =>
    cases o with
    | customerCreate new =>
      obtain ⟨row, hrow, -, -, rfl⟩ := createCustomer_ok_iff.mp hrun
      rcases List.mem_append.mp hc with hold | hnew
      · exact .inl ⟨c, hold, rfl, rfl⟩
      · rw [List.mem_singleton.mp hnew]
        exact .inr (NewCustomer.row_ok hrow).1
    | customerSave saved =>
      obtain ⟨target, wallet, -, -, -, rfl⟩ := saveCustomer_ok_iff.mp (written_ok_iff.mp hrun)
      rcases mem_setRow.mp hc with ⟨rfl, row, hrow, hid⟩ | ⟨hold, -⟩
      · cases hturn with
        | wait waits silent => cases silent
        | save kind => exact hstarted.elim
        | edit => exact .inl ⟨row, hrow, hid, h.2 row hrow hid⟩
      · exact .inl ⟨c, hold, rfl, rfl⟩
    | customerDelete id =>
      cases hrun
      exact .inl ⟨c, List.mem_of_mem_filter hc, rfl, rfl⟩
    | _ => cases hw

theorem Named.next (h : Named s customer) (ha : Acts provisioning s tr i call g o f r s')
    (hprep : Prepared s call g) : Named s' customer := by
  refine ⟨lt_of_lt_of_le h.1 ha.keeps.clock, fun c hc hid => ?_⟩
  rcases customers_named ha hprep c hc with ⟨row, hrow, hsame, hname⟩ | hnew
  · rw [← hname]
    exact h.2 row hrow (hsame.trans hid)
  · exact absurd (hid.symm.trans hnew) (ne_of_fresh h.1 rfl)

/-- An account after a turn has the keys of an old one, or was opened for a customer read before. -/
theorem accounts_named (ha : Acts provisioning s tr i call g o f r s') (h : Prepared s call g) :
    ∀ b ∈ s'.dedicatedAccounts, (∃ a ∈ s.dedicatedAccounts, a.keys = b.keys) ∨
      ' ' ∉ b.accountNumber.toList ∧ ∃ customer, Named s customer ∧ b.customerId = customer.id ∧
        b.accountRef = customer.merchantCustomerId := by
  have hrun := ha.run
  have hstanding := ha.standing
  have hturn := ha.turn
  intro b hb
  cases hw : o.writes .dedicatedAccounts with
  | false =>
    rw [(exec_frame hrun).dedicatedAccounts hw] at hb
    exact .inl ⟨b, hb, rfl⟩
  | true =>
    cases o with
    | accountCreate new =>
      obtain ⟨hrow, -, -, rfl⟩ := createAccount_ok_iff.mp hrun
      obtain ⟨-, howner, hnumber, href, -⟩ := NewAccount.row_ok hrow
      rcases List.mem_append.mp hb with hold | hnew
      · exact .inl ⟨b, hold, rfl⟩
      · rw [List.mem_singleton.mp hnew]
        right
        cases hturn with
        | wait waits silent => cases silent
        | openAccount owner ref number =>
          obtain ⟨text, htext⟩ := number
          rw [hnumber, htext, howner, owner, href, ref]
          exact ⟨no_space_removeSpaces text, _, h.1, rfl, (h.2 _ _ _ rfl).symm⟩
        | openDedicated owner ref number =>
          obtain ⟨text, htext⟩ := number
          rw [hnumber, htext, howner, owner, href, ref]
          exact ⟨no_space_removeSpaces text, _, h, rfl, rfl⟩
    | accountSave account =>
      obtain ⟨-, rfl⟩ := saveAccount_ok_iff.mp (written_ok_iff.mp hrun)
      rcases mem_setRow.mp hb with ⟨rfl, a, hmem, hid⟩ | ⟨hold, -⟩
      · cases hturn with
        | wait waits silent => cases silent
        | rename => exact .inl ⟨a, hmem, hstanding.keys a hmem hid⟩
      · exact .inl ⟨b, hold, rfl⟩
    | customerDelete id =>
      cases hrun
      exact .inl ⟨b, List.mem_of_mem_filter hb, rfl⟩
    | _ => cases hw

theorem accounted_next (ha : Acts provisioning s tr i call g o f r s') (h : Accounted past s)
    (hprep : Prepared s call g) : Accounted past s' := by
  have hc := ha.shared.constraints
  refine ⟨fun b hb c hcust howner => ?_, fun b hb => ?_, fun a hpast => (h.past a hpast).keeps ha.keeps⟩
  · have hcustomer := customers_named ha hprep c hcust
    rcases accounts_named ha hprep b hb with ⟨a, hold, hkeys⟩ | ⟨-, customer, hnamed, hopened, href⟩
    · obtain ⟨row, hrow, hid⟩ := hc.account_fk a hold
      have hsame : row.id = c.id := by rw [hid, keys_owner hkeys, howner]
      rcases hcustomer with ⟨row', hrow', hid', hname⟩ | hnew
      · rw [← keys_ref hkeys, ← hname]
        exact h.reference a hold row' hrow' (hid'.trans (hsame.symm.trans hid))
      · exact absurd (hsame.trans hnew) (ne_of_fresh (hc.customer_fresh row hrow) rfl)
    · have hsame : c.id = customer.id := howner.trans hopened
      rcases hcustomer with ⟨row, hrow, hid, hname⟩ | hnew
      · rw [href, ← hname]
        exact (hnamed.2 row hrow (hid.trans hsame)).symm
      · exact absurd (hsame.symm.trans hnew) (ne_of_fresh hnamed.1 rfl)
  · rcases accounts_named ha hprep b hb with ⟨a, hold, hkeys⟩ | ⟨hnumber, -⟩
    · rw [← keys_number hkeys]
      exact h.number a hold
    · exact hnumber

theorem Prepared.next {call' : Call} {g' : Place} (h : Prepared s call' g')
    (ha : Acts provisioning s tr i call g o f r s') (hprep : Prepared s call g) :
    Prepared s' call' g' := by
  cases g' with
  | found customer | chosen customer => exact Named.next h ha hprep
  | pending customer => exact ⟨h.1.next ha hprep, h.2⟩
  | _ => trivial

/-- A customer that a query answers with. -/
theorem named_found (hc : s.Constraints) {p : Customer Cents → Bool}
    (he : (getOrNone p s.customers).map (Option.map Customer.load) = .ok (some customer)) :
    Named s customer := by
  obtain ⟨row, hrow, -, rfl⟩ := getOrNone_load he
  refine ⟨hc.customer_fresh row hrow, fun c hcust hid => ?_⟩
  rw [eq_of_key hc.customer_pk hcust hrow hid]
  rfl

/-- The customer that `create` inserts. -/
theorem named_created (hc : s.Constraints) {new : NewCustomer}
    (he : s.createCustomer new = .ok (customer, s')) :
    Named s' customer ∧ customer.merchantCustomerId = new.merchantCustomerId := by
  obtain ⟨row, hrow, -, rfl, rfl⟩ := createCustomer_ok_iff.mp he
  obtain ⟨hid, -, hname, -⟩ := NewCustomer.row_ok hrow
  refine ⟨⟨lt_tick hid, forall_mem_append (fun c hcust hsame => ?_) fun _ => rfl⟩, hname⟩
  exact absurd hsame (ne_of_fresh (hc.customer_fresh c hcust) hid)

theorem prepared_next (ha : Acts provisioning s tr i call g o f r s') (h : Prepared s call g) :
    Prepared s' call (f r) := by
  have hrun := ha.run
  have hstarted := ha.started
  have hc := ha.shared.constraints
  cases ha.turn with
  | wait waits silent => exact h.next ha h
  | resolveById | resolveByExternalId | choose =>
    obtain ⟨hfound, rfl⟩ := answered_ok_iff.mp hrun
    cases r with
    | none => trivial
    | some customer => exact named_found hc hfound
  | provide =>
    obtain ⟨hnamed, hname⟩ := named_created hc hrun
    refine ⟨hnamed, fun body merchantId nomba hcall => ?_⟩
    cases hcall
    exact hname
  | findAccount => cases r <;> trivial
  | edit | rename | compensate | openAccount | openDedicated => trivial
  | check | ignore | byNumber | byReference | load | hold | insert | suspend | logSuspense | save
  | logCredit | emit | mark | matchById | matchByRef | logMatch => exact hstarted.elim

/-- Nothing is paid by these calls. -/
theorem unpaid_next (hcall : call.provisions) (hturn : Turn call g o f)
    (hrun : exec o s = .ok (r, s')) (h : s.transactions = []) : s'.transactions = [] := by
  cases hw : o.writes .transactions with
  | false => rw [(exec_frame hrun).transactions hw, h]
  | true =>
    cases o with
    | customerDelete id =>
      cases hrun
      show s.transactions.filter _ = []
      rw [h]
      rfl
    | transactionCreate new =>
      cases hturn with
      | wait waits silent => cases silent
      | hold | insert => exact hcall.elim
    | _ => cases hw

end Turn

/-! ## Every schedule -/

/-- The assumption on calls alone. -/
def provisioningCalls : Assumption Op Res Tables Call where
  call := Call.provisions
  step _ _ _ _ _ := True

/-- Nothing has been paid, at any moment. -/
abbrev Unfunded : Protocol.View Op Res Tables Call Place → Prop :=
  Protocol.Modular provisioningCalls (fun s _ => s.transactions = []) fun _ _ _ _ _ => True

abbrev Linking (past : Tables) : Protocol.View Op Res Tables Call Place → Prop :=
  Invariant provisioning (fun s _ => Accounted past s) fun s _ _ call g => Prepared s call g

theorem unfunded_next {v v' : Protocol.View Op Res Tables Call Place} (h : Unfunded v)
    (hn : service.Next exec provisioningCalls v v') : Unfunded v' := by
  refine Protocol.modular_next (fun _ _ _ _ _ _ _ => trivial) ?_ ?_ h hn
  · intro s tr i call g o f r s' hcall hnone _ hturn hrun _
    exact ⟨unpaid_next hcall hturn hrun hnone, trivial⟩
  · intros
    trivial

theorem linking_next {past : Tables} {v v' : Protocol.View Op Res Tables Call Place}
    (h : Linking past v) (hn : service.Next exec provisioning v v') : Linking past v' :=
  invariant_next provisioning_harmless (fun _ _ _ _ _ => trivial)
    (fun _ _ _ _ _ _ _ _ _ ha h hprep => ⟨accounted_next ha h hprep, prepared_next ha hprep⟩)
    (fun _ _ _ _ _ _ _ _ _ ha _ hprep _ _ _ _ _ _ hj => hj.next ha hprep) h hn

theorem provisions_scheduled {call : Call} (h : call.provisions) : call.scheduled := by
  cases call with
  | create _ _ _ | createDedicated _ _ _ | update _ _ _ _ => trivial
  | receive | simulate | register | nightly => exact h.elim

/-- A schedule of these calls pays nothing. -/
theorem provisioning_meets {schedule : List (Move Call Err)}
    (hcalls : ∀ call ∈ Pool.started schedule, call.provisions) :
    Meets provisioning Database.empty.tables schedule := by
  have hmeets : Meets provisioningCalls Database.empty.tables schedule :=
    Pool.meets_of_started (fun _ _ _ _ _ => trivial) hcalls
  have hinit : Unfunded ⟨Database.empty.tables, [], []⟩ := Protocol.Modular.init rfl
  refine Protocol.Views.meets (fun call hc => follows_handler (provisions_scheduled hc))
    (fun _ _ => unfunded_next) ?_ ?_ (Protocol.Views.init _) hinit hmeets
  · exact fun call hc => hc
  · exact fun v call i o hI _ => hI.shared

/-- Every customer has at most one account, which carries its reference, and no number has a space. -/
structure Linked (db : Tables) : Prop where
  one : (db.dedicatedAccounts.map (·.customerId)).Nodup
  reference : ∀ a ∈ db.dedicatedAccounts, ∃ c ∈ db.customers, c.id = a.customerId ∧
    a.accountRef = c.merchantCustomerId
  number : ∀ a ∈ db.dedicatedAccounts, ' ' ∉ a.accountNumber.toList

/-- The accounts of both moments have the same owner, number and reference in both. -/
def LinksKept (past db : Tables) : Prop :=
  ∀ a ∈ past.dedicatedAccounts, ∀ b ∈ db.dedicatedAccounts, b.id = a.id →
    b.customerId = a.customerId ∧ b.accountNumber = a.accountNumber ∧ b.accountRef = a.accountRef

/-- The references are unique, and the owner decides the reference. -/
theorem Accounted.linked {past s : Tables} (h : Accounted past s) (hc : s.Constraints) : Linked s := by
  refine ⟨?_, fun a ha => ?_, h.number⟩
  · rw [List.nodup_iff_pairwise_ne, List.pairwise_map]
    have hrefs := hc.account_ref
    rw [List.nodup_iff_pairwise_ne, List.pairwise_map] at hrefs
    refine hrefs.imp_of_mem fun {a b} ha hb hne howner => hne ?_
    obtain ⟨c, hcust, hid⟩ := hc.account_fk a ha
    calc a.accountRef = c.merchantCustomerId := h.reference a ha c hcust hid
      _ = b.accountRef := (h.reference b hb c hcust (hid.trans howner)).symm
  · obtain ⟨c, hcust, hid⟩ := hc.account_fk a ha
    exact ⟨c, hcust, hid, h.reference a ha c hcust hid⟩

theorem Accounted.kept {past s : Tables} (h : Accounted past s) : LinksKept past s := by
  intro a ha b hb hid
  have hkeys := (h.past a ha).keys b hb hid
  exact ⟨keys_owner hkeys, keys_number hkeys, keys_ref hkeys⟩

/-- For any number of `create`, `create_dedicated` and `update` calls of any merchants, with any replies
of Nomba, interleaved in any order from the empty database: at every moment the accounts are linked to
their customers, one for each, and what is there at two moments has the same links in both. -/
theorem accounts_linked (earlier later : List (Move Call Err))
    (hcalls : ∀ call ∈ Pool.started (earlier ++ later), call.provisions)
    (P P' : Pool Op Res Err Reply Tables Call)
    (hplay : play Database.empty.tables earlier = some P)
    (hlater : P.play exec Call.handler later = some P') :
    Linked P.state ∧ Linked P'.state ∧ LinksKept P.state P'.state := by
  obtain ⟨hmeets₁, hmeets₂⟩ := Pool.Meets.append (provisioning_meets hcalls) hplay
  have hstart : Accounted Database.empty.tables Database.empty.tables :=
    ⟨fun a ha => absurd ha List.not_mem_nil, fun a ha => absurd ha List.not_mem_nil,
      fun a ha => absurd ha List.not_mem_nil⟩
  have hinit : Linking Database.empty.tables ⟨Database.empty.tables, [], []⟩ :=
    Invariant.init Database.empty.constraints hstart
  obtain ⟨v, hv, hI⟩ := play_view (fun _ => provisions_scheduled) (fun _ _ => linking_next) hinit
    hmeets₁ hplay
  obtain ⟨hshared, haccounted⟩ := hI.shared
  -- the second part starts from the accounts of the first
  have hpast : Accounted v.state v.state :=
    ⟨haccounted.reference, haccounted.number, fun a ha => known_of_mem hshared.constraints ha⟩
  have hI₂ : Linking v.state v := ⟨⟨hshared, hpast⟩, hI.program, hI.index⟩
  obtain ⟨v', hv', hI'⟩ := play_on (fun _ => provisions_scheduled) (fun _ _ => linking_next) hv hI₂
    hmeets₂ hlater
  obtain ⟨hshared', haccounted'⟩ := hI'.shared
  have hlinked := haccounted.linked hshared.constraints
  have hlinked' := haccounted'.linked hshared'.constraints
  have hkept : LinksKept v.state v'.state := haccounted'.kept
  rw [hv.state] at hlinked hkept
  rw [hv'.state] at hlinked' hkept
  exact ⟨hlinked, hlinked', hkept⟩

/-- While `create` waits for Nomba, another call opens an account for its customer. -/
def contended : List (Move Call Err) :=
  .start (.create ⟨"cust-1", "Ada", none, none, none, []⟩ 7
    (.success (.obj [("accountNumber", .str "99 01")]))) :: List.replicate 4 (.advance 0) ++
    .start (.createDedicated ⟨"cust-1", none⟩ 7 (.success (.obj [("accountNumber", .str "99 02")]))) ::
      List.replicate 5 (.advance 1)

/-- When it goes on, its own insert is refused. -/
theorem accounts_linked_when_contended : ∃ P P', play Database.empty.tables contended = some P ∧
    P.play exec Call.handler [.advance 0] = some P' ∧
    Linked P.state ∧ Linked P'.state ∧ LinksKept P.state P'.state := by
  have hrun : ((play Database.empty.tables contended).bind fun P =>
      P.play exec Call.handler [.advance 0]).isSome = true := by
    decide +kernel
  obtain ⟨P', hrun'⟩ := Option.isSome_iff_exists.mp hrun
  obtain ⟨P, hplay, hlater⟩ := Option.bind_eq_some_iff.mp hrun'
  refine ⟨P, P', hplay, hlater, accounts_linked contended [.advance 0] (fun call hcall => ?_) P P' hplay
    hlater⟩
  rcases List.mem_cons.mp hcall with rfl | hrest
  · trivial
  · rw [List.mem_singleton.mp hrest]
    trivial

end LdbBackend
