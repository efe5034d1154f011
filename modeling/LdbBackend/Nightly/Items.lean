import LdbBackend.Provision.Maintain

/-!
# The items of the nightly job

An item is examined when it names a transfer (`identifies`). Its lookups find a transaction or none as
long as each is by a text that can stand in its column and matches at most one row (`Single`); otherwise
the job raises. A match is logged with the
amount that is stored (`matchLog`), and neither changes the transactions, so all items of a run are
looked up in the same table.
-/

namespace LdbBackend

open Fixed Effects Table

/-! ## Items -/

/-- `item.get(key)`, for an object. -/
def itemKey (item : Json) (key : String) : Json :=
  match item with
  | .obj fields => (fields.lookup key).getD .null
  | _ => .null

def itemId (item : Json) : Json := (itemKey item "transactionId").orElse (itemKey item "id")

def itemRef (item : Json) : Json := itemKey item "merchantTxRef"

/-- The item is an object with a truthy `transactionId`, `id` or `merchantTxRef`. -/
def identifies (item : Json) : Bool :=
  ["transactionId", "id", "merchantTxRef"].any fun key => (itemKey item key).truthy

theorem truthy_orElse (a b : Json) : (a.orElse b).truthy = (a.truthy || b.truthy) := by
  unfold Json.orElse
  cases ha : a.truthy with
  | true => simp [ha]
  | false => simp

theorem identifies_eq (item : Json) : identifies item = ((itemId item).truthy || (itemRef item).truthy) := by
  rw [itemId, truthy_orElse, Bool.or_assoc]
  simp [identifies, itemRef]

theorem eitherKey_obj (fields : List (String × Json)) :
    eitherKey (.obj fields) "transactionId" "id" = .ok (itemId (.obj fields)) := by
  show (if ((fields.lookup "transactionId").getD .null).truthy then Except.ok _ else Except.ok _) = _
  unfold itemId Json.orElse itemKey
  split_ifs
  · rfl
  · rfl

def matchLog (checkedAt : String) (item : Json) (tx : Transaction) : NewReconciliationLog where
  transaction := tx
  expectedAmount := some (Decimal.ofScaled 2 tx.amount)
  receivedAmount := Decimal.ofScaled 2 tx.amount
  decision := .safetyNetMatch
  details := .obj [("nomba_transaction_id", itemId item), ("checked_at", .str checkedAt)]

/-- What the job does with an item that names a transfer, and then. -/
def examine (checkedAt : String) (matched missing : Nat) (item : Json) (items : List Json) :
    Option Transaction → Handler NightlyReport
  | none => reconcileItems checkedAt matched (missing + 1) items
  | some tx =>
    if (matchLog checkedAt item tx).details.storable then
      .perform (.reconciliationLogCreate (matchLog checkedAt item tx)) fun _ =>
        reconcileItems checkedAt (matched + 1) missing items
    else .raise .dataError

section Cons

variable {checkedAt : String} {matched missing : Nat} {item : Json} {items : List Json}

theorem reconcileItems_skip (h : identifies item = false) :
    reconcileItems checkedAt matched missing (item :: items) =
      reconcileItems checkedAt matched missing items := by
  cases item with
  | obj fields =>
    rw [identifies_eq, Bool.or_eq_false_iff] at h
    have href : ((fields.lookup "merchantTxRef").getD Json.null).truthy = false := h.2
    rw [reconcileItems]
    simp only [eitherKey_obj, Json.get, Prog.lift_ok, Prog.pure_bind', h.1, href, Bool.not_false,
      Bool.and_self, if_true]
  | _ => rfl

theorem reconcileItems_examine (h : identifies item = true) :
    reconcileItems checkedAt matched missing (item :: items) =
      findTransaction (itemId item) (itemRef item) >>= examine checkedAt matched missing item items := by
  cases item with
  | obj fields =>
    rw [identifies_eq, Bool.or_eq_true_iff] at h
    have hnamed : (!(itemId (.obj fields)).truthy &&
        !((fields.lookup "merchantTxRef").getD Json.null).truthy) = false := by
      rcases h with hid | href
      · rw [hid]
        rfl
      · have hkey : ((fields.lookup "merchantTxRef").getD Json.null).truthy = true := href
        rw [hkey, Bool.not_true, Bool.and_false]
    rw [reconcileItems]
    simp only [eitherKey_obj, Json.get, Prog.lift_ok, Prog.pure_bind', hnamed, Bool.false_eq_true,
      if_false]
    congr 1
    funext found
    cases found with
    | none => rfl
    | some tx =>
      by_cases hdetails : (matchLog checkedAt (.obj fields) tx).details.storable = true
      · have hencoded : matchDetails checkedAt (itemId (.obj fields)) =
            .ok (matchLog checkedAt (.obj fields) tx).details := if_pos hdetails
        simp only [examine, if_pos hdetails, hencoded]
        rfl
      · have hencoded : matchDetails checkedAt (itemId (.obj fields)) = .error .dataError := if_neg hdetails
        simp only [examine, if_neg hdetails, hencoded]
        rfl
  | _ => cases h

theorem examine_storable {tx : Transaction} (h : (matchLog checkedAt item tx).details.storable = true) :
    examine checkedAt matched missing item items (some tx) =
      .perform (.reconciliationLogCreate (matchLog checkedAt item tx)) fun _ =>
        reconcileItems checkedAt (matched + 1) missing items := if_pos h

theorem examine_unstorable {tx : Transaction} (h : ¬ (matchLog checkedAt item tx).details.storable = true) :
    examine checkedAt matched missing item items (some tx) = .raise .dataError := if_neg h

end Cons

/-! ## Lookups -/

namespace Tables

def withNombaId (db : Tables) (nombaTransactionId : String) : List Transaction :=
  db.transactions.filter (·.nombaTransactionId = some nombaTransactionId)

def withTxRef (db : Tables) (merchantTxRef : String) : List Transaction :=
  db.transactions.filter (·.merchantTxRef = some merchantTxRef)

end Tables

/-- Each lookup that the item leads to is by a text that fits its column and matches at most one row. -/
structure Single (db : Tables) (item : Json) : Prop where
  byId : (itemId item).truthy = true →
    FilterText 200 (itemId item).text ∧ (db.withNombaId (itemId item).text).length ≤ 1
  byRef : (itemRef item).truthy = true →
    ((itemId item).truthy = true → db.withNombaId (itemId item).text = []) →
    FilterText 200 (itemRef item).text ∧ (db.withTxRef (itemRef item).text).length ≤ 1

/-- The first transaction under the reference. -/
def Tables.lookupRef (db : Tables) (merchantTxRef : Json) : Option Transaction :=
  if merchantTxRef.truthy then (db.withTxRef merchantTxRef.text).head? else none

/-- The first transaction under the id of the item, or else under its reference. -/
def Tables.lookup (db : Tables) (item : Json) : Option Transaction :=
  (if (itemId item).truthy then (db.withNombaId (itemId item).text).head? else none).or
    (db.lookupRef (itemRef item))

/-- The item can be looked up, and if it is matched, its id can stand in the details of the log. -/
structure Examinable (db : Tables) (item : Json) : Prop extends Single db item where
  logged : (db.lookup item).isSome = true → (itemId item).storable = true

section Find

variable {db : Tables} {item : Json} {text : String}

theorem exec_byNombaId (h : FilterText 200 text ∧ (db.withNombaId text).length ≤ 1) :
    exec (.transactionByNombaId text) db = .ok ((db.withNombaId text).head?, db) := by
  show answered (getByText _ _ _) db = _
  rw [getByText_single h]
  rfl

theorem exec_byNombaId_raises (h : ¬ (FilterText 200 text ∧ (db.withNombaId text).length ≤ 1)) :
    ∃ e, exec (.transactionByNombaId text) db = .error e := by
  obtain ⟨e, he⟩ := getByText_raises h
  refine ⟨e, ?_⟩
  show answered (getByText _ _ _) db = _
  rw [he]
  rfl

theorem exec_byTxRef (h : FilterText 200 text ∧ (db.withTxRef text).length ≤ 1) :
    exec (.transactionByMerchantTxRef text) db = .ok ((db.withTxRef text).head?, db) := by
  show answered (getByText _ _ _) db = _
  rw [getByText_single h]
  rfl

theorem exec_byTxRef_raises (h : ¬ (FilterText 200 text ∧ (db.withTxRef text).length ≤ 1)) :
    ∃ e, exec (.transactionByMerchantTxRef text) db = .error e := by
  obtain ⟨e, he⟩ := getByText_raises h
  refine ⟨e, ?_⟩
  show answered (getByText _ _ _) db = _
  rw [he]
  rfl

/-- The second lookup, once the first has found nothing. -/
def lookupByTxRef (merchantTxRef : Json) : Handler (Option Transaction) :=
  if merchantTxRef.truthy then await (.transactionByMerchantTxRef merchantTxRef.text) else pure none

theorem findTransaction_byId {nombaTxId merchantTxRef : Json} (h : nombaTxId.truthy = true) :
    findTransaction nombaTxId merchantTxRef = .perform (.transactionByNombaId nombaTxId.text) fun
      | some tx => .pure (some tx)
      | none => lookupByTxRef merchantTxRef := by
  unfold findTransaction
  rw [if_pos h]
  show Prog.perform _ _ = Prog.perform _ _
  congr 1
  funext byId
  cases byId with
  | some tx => rfl
  | none => rfl

theorem findTransaction_byRef {nombaTxId merchantTxRef : Json} (h : nombaTxId.truthy = false) :
    findTransaction nombaTxId merchantTxRef = lookupByTxRef merchantTxRef := by
  unfold findTransaction
  rw [if_neg (by simp [h])]
  rfl

theorem lookupByTxRef_run {merchantTxRef : Json}
    (h : merchantTxRef.truthy = true →
      FilterText 200 merchantTxRef.text ∧ (db.withTxRef merchantTxRef.text).length ≤ 1) :
    Prog.run exec (lookupByTxRef merchantTxRef) db = (.ok (db.lookupRef merchantTxRef), db) := by
  unfold lookupByTxRef Tables.lookupRef
  cases href : merchantTxRef.truthy with
  | true =>
    rw [if_pos rfl, if_pos rfl]
    exact Prog.run_perform_ok exec (exec_byTxRef (h href))
  | false => rfl

theorem lookupByTxRef_raises {merchantTxRef : Json} (href : merchantTxRef.truthy = true)
    (h : ¬ (FilterText 200 merchantTxRef.text ∧ (db.withTxRef merchantTxRef.text).length ≤ 1)) :
    ∃ e, Prog.run exec (lookupByTxRef merchantTxRef) db = (.error e, db) := by
  obtain ⟨e, he⟩ := exec_byTxRef_raises h
  unfold lookupByTxRef
  rw [if_pos href]
  exact ⟨e, Prog.run_perform_error exec he⟩

theorem Single.finds (h : Single db item) :
    Prog.run exec (findTransaction (itemId item) (itemRef item)) db = (.ok (db.lookup item), db) := by
  unfold Tables.lookup
  cases hid : (itemId item).truthy with
  | false =>
    rw [findTransaction_byRef hid]
    exact lookupByTxRef_run fun href => h.byRef href fun htrue => absurd (hid.symm.trans htrue) (by simp)
  | true =>
    rw [findTransaction_byId hid, Prog.run_perform_ok exec (exec_byNombaId (h.byId hid)), if_pos rfl]
    cases hfound : db.withNombaId (itemId item).text with
    | nil => exact lookupByTxRef_run fun href => h.byRef href fun _ => hfound
    | cons tx rest => rfl

theorem lookup_mem {tx : Transaction} (h : db.lookup item = some tx) : tx ∈ db.transactions := by
  have hfirst : ∀ {q : Transaction → Bool}, (db.transactions.filter q).head? = some tx →
      tx ∈ db.transactions := fun hhead => (List.mem_filter.mp (List.mem_of_mem_head? hhead)).1
  unfold Tables.lookup Tables.lookupRef at h
  rcases Option.or_eq_some_iff.mp h with hid | ⟨-, href⟩
  · split_ifs at hid
    exact hfirst hid
  · split_ifs at href
    exact hfirst href

/-- The lookups depend on the transactions alone. -/
theorem lookup_congr {db' : Tables} (htx : db'.transactions = db.transactions) :
    db'.lookup item = db.lookup item := by
  unfold Tables.lookup Tables.lookupRef Tables.withNombaId Tables.withTxRef
  rw [htx]

/-- Where a lookup is by a text that does not fit its column or matches several rows, it raises. -/
theorem findTransaction_raises (h : ¬ Single db item) :
    ∃ e, Prog.run exec (findTransaction (itemId item) (itemRef item)) db = (.error e, db) := by
  by_contra hnone
  refine h ?_
  cases hid : (itemId item).truthy with
  | false =>
    rw [findTransaction_byRef hid] at hnone
    refine ⟨fun htrue => absurd (hid.symm.trans htrue) (by simp), fun href _ => ?_⟩
    by_contra hbad
    exact hnone (lookupByTxRef_raises href hbad)
  | true =>
    rw [findTransaction_byId hid] at hnone
    have hfirst : FilterText 200 (itemId item).text ∧ (db.withNombaId (itemId item).text).length ≤ 1 := by
      by_contra hbad
      obtain ⟨e, he⟩ := exec_byNombaId_raises hbad
      exact hnone ⟨e, Prog.run_perform_error exec he⟩
    rw [Prog.run_perform_ok exec (exec_byNombaId hfirst)] at hnone
    refine ⟨fun _ => hfirst, fun href hempty => ?_⟩
    by_contra hbad
    rw [hempty hid] at hnone
    exact hnone (lookupByTxRef_raises href hbad)

end Find

end LdbBackend
