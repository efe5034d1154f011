import LdbBackend.Concurrent.LostUpdate
import LdbBackend.History.Ledger

/-!
# Profiles and their updates

The profile of a customer is what its merchant sets through `update`; a delivery owns only the wallet. A
profile holds the last values (`HoldsLast`) if every column is what the last update that supplied it has
set, or the initial value. Which updates have set something is read off the trace (`applied`), in the
order in which the calls were started.
-/

namespace LdbBackend

open Fixed Effects Table

structure Profile (μ : Type) where
  name : String
  email : Option String
  phone : Option String
  targetAmount : Option μ
  metadata : List (String × String)
  deriving DecidableEq

def Customer.profile {μ : Type} (c : Customer μ) : Profile μ :=
  ⟨c.name, c.email, c.phone, c.targetAmount, c.metadata⟩

def Call.changes : Call → Option UpdateCustomerRequest
  | .update _ body _ _ => some body
  | _ => none

/-- The value of the last body that supplies the field. -/
def lastSupplied {β : Type} (field : UpdateCustomerRequest → Option β)
    (bodies : List UpdateCustomerRequest) : Option β :=
  (bodies.filterMap field).getLast?

/-- Every column holds what the last of the bodies that supplies it sets, or what it held before. -/
structure HoldsLast (bodies : List UpdateCustomerRequest) (before after : Profile Cents) : Prop where
  name : after.name = (lastSupplied (·.name) bodies).getD before.name
  email : after.email = (lastSupplied (·.email) bodies).or before.email
  phone : after.phone = (lastSupplied (·.phone) bodies).or before.phone
  target : match lastSupplied (·.targetAmount) bodies with
    | some amount => ∃ n, numericColumn amount = .ok n ∧ after.targetAmount = some n
    | none => after.targetAmount = before.targetAmount
  metadata : after.metadata = (lastSupplied (·.metadata) bodies).getD before.metadata

/-- Call `i` has saved the customer. -/
def savedBy (tr : Trace) (i : Nat) (id : UUID) : Bool :=
  tr.any fun e => e.1 = i ∧ Ledger.saved e.2 = some id

/-- The bodies of the updates that have saved the customer, in the order of the calls. -/
def applied (calls : List Call) (tr : Trace) (id : UUID) : List UpdateCustomerRequest :=
  calls.zipIdx.filterMap fun x => if savedBy tr x.2 id then x.1.changes else none

/-! ## The last value -/

section HoldsLast

variable {bodies : List UpdateCustomerRequest} {body : UpdateCustomerRequest}
  {before after : Profile Cents}

theorem lastSupplied_append {β : Type} (field : UpdateCustomerRequest → Option β) :
    lastSupplied field (bodies ++ [body]) = (field body).or (lastSupplied field bodies) := by
  unfold lastSupplied
  rw [List.filterMap_append]
  cases hfield : field body with
  | none => simp [hfield]
  | some value => simp [hfield]

/-- A column that is always set: the value supplied now, or the one it had. -/
theorem getD_supplied {β : Type} {field : UpdateCustomerRequest → Option β} {first old new : β}
    (hold : old = (lastSupplied field bodies).getD first) (hnew : new = (field body).getD old) :
    new = (lastSupplied field (bodies ++ [body])).getD first := by
  rw [hnew, hold, lastSupplied_append]
  cases field body <;> rfl

/-- A nullable column. -/
theorem or_supplied {β : Type} {field : UpdateCustomerRequest → Option β} {first old new : Option β}
    (hold : old = (lastSupplied field bodies).or first) (hnew : new = (field body).or old) :
    new = (lastSupplied field (bodies ++ [body])).or first := by
  rw [hnew, hold, lastSupplied_append]
  cases field body <;> rfl

theorem holdsLast_nil : HoldsLast [] before before :=
  ⟨rfl, rfl, rfl, rfl, rfl⟩

theorem profile_reload {row : Customer Cents} {c : Customer Decimal} (h : c.profile = row.load.profile) :
    c.name = row.name ∧ c.email = row.email ∧ c.phone = row.phone ∧
      c.targetAmount = row.targetAmount.map (Decimal.ofScaled 2) ∧ c.metadata = row.metadata := by
  simpa only [Customer.profile, Profile.mk.injEq, Customer.load] using h

/-- An object with the stored profile writes it back as it is. -/
theorem profile_dump {row : Customer Cents} {c : Customer Decimal} {target : Option Cents}
    (h : c.profile = row.load.profile) (hfits : ∀ n, row.targetAmount = some n → FitsColumn n)
    (htarget : c.targetAmount.mapM numericColumn = .ok target) (wallet : Cents) (time : Time) :
    (c.dump target wallet time).profile = row.profile := by
  obtain ⟨hname, hemail, hphone, hamount, hmetadata⟩ := profile_reload h
  rw [hamount, numericColumn_reload hfits] at htarget
  cases htarget
  simp only [Customer.profile, Customer.dump, hname, hemail, hphone, hmetadata]

/-- An update applied to the stored profile adds its values to the last ones. -/
theorem HoldsLast.update {row : Customer Cents} {c : Customer Decimal} {target : Option Cents}
    (h : HoldsLast bodies before row.profile) (hfresh : c.profile = row.load.profile)
    (hfits : ∀ n, row.targetAmount = some n → FitsColumn n)
    (htarget : (CustomerService.applyUpdate body c).targetAmount.mapM numericColumn = .ok target)
    (wallet : Cents) (time : Time) :
    HoldsLast (bodies ++ [body]) before
      ((CustomerService.applyUpdate body c).dump target wallet time).profile := by
  obtain ⟨hname, hemail, hphone, hamount, hmetadata⟩ := profile_reload hfresh
  refine ⟨getD_supplied h.name (congrArg body.name.getD hname),
    or_supplied h.email (Option.orElse_eq_or.trans (congrArg body.email.or hemail)),
    or_supplied h.phone (Option.orElse_eq_or.trans (congrArg body.phone.or hphone)), ?_,
    getD_supplied h.metadata (congrArg body.metadata.getD hmetadata)⟩
  have hbefore := h.target
  rw [lastSupplied_append]
  cases hsupplied : body.targetAmount with
  | none =>
    have hkept : (CustomerService.applyUpdate body c).targetAmount = c.targetAmount := by
      simp [CustomerService.applyUpdate, hsupplied]
    rw [hkept, hamount, numericColumn_reload hfits] at htarget
    cases htarget
    exact hbefore
  | some amount =>
    have hset : (CustomerService.applyUpdate body c).targetAmount = some amount := by
      simp [CustomerService.applyUpdate, hsupplied]
    rw [hset] at htarget
    rcases mapM_ok_iff.mp htarget with ⟨hnone, -⟩ | ⟨a, n, ha, hn, hcolumn⟩
    · cases hnone
    · cases ha
      exact ⟨n, hcolumn, hn⟩

end HoldsLast

/-! ## Applied updates -/

section Applied

variable {tr : Trace} {i j : Nat} {e : Event Op Res} {id : UUID} {calls : List Call} {call : Call}
  {body : UpdateCustomerRequest}

theorem savedBy_append : savedBy (tr ++ [(i, e)]) j id =
    (savedBy tr j id || decide (i = j ∧ Ledger.saved e = some id)) := by
  simp [savedBy]

theorem savedBy_other (h : j ≠ i) : savedBy (tr ++ [(i, e)]) j id = savedBy tr j id := by
  rw [savedBy_append]
  simp [Ne.symm h]

theorem savedBy_silent (h : Ledger.saved e ≠ some id) :
    savedBy (tr ++ [(i, e)]) j id = savedBy tr j id := by
  rw [savedBy_append]
  simp [h]

theorem savedBy_keeps (h : savedBy tr j id = true) : savedBy (tr ++ [(i, e)]) j id = true := by
  rw [savedBy_append, h, Bool.true_or]

theorem savedBy_absent (h : ∀ e ∈ tr, e.1 ≠ i) : savedBy tr i id = false := by
  unfold savedBy
  rw [List.any_eq_false]
  intro e he
  simp [h e he]

theorem applied_start (h : ∀ e ∈ tr, e.1 < calls.length) (call : Call) :
    applied (calls ++ [call]) tr id = applied calls tr id := by
  have hnew : savedBy tr calls.length id = false := savedBy_absent fun e he => (h e he).ne
  unfold applied
  simp [List.zipIdx_append, hnew]

/-- Only saves by updates matter. -/
theorem applied_same {tr' : Trace} (h : ∀ i call, calls[i]? = some call → call.changes ≠ none →
    savedBy tr' i id = savedBy tr i id) : applied calls tr' id = applied calls tr id := by
  unfold applied
  refine List.filterMap_congr fun x hx => ?_
  have hcall := List.mem_zipIdx_iff_getElem?.mp hx
  by_cases hnone : x.1.changes = none
  · rw [hnone, ite_self, ite_self]
  · rw [h x.2 x.1 hcall hnone]

/-- The last update adds its body when it saves. -/
theorem applied_save (hi : calls[i]? = some call) (hbody : call.changes = some body)
    (hfirst : savedBy tr i id = false) (hsaved : Ledger.saved e = some id)
    (hlast : ∀ j call', calls[j]? = some call' → call'.changes ≠ none → j ≤ i) :
    applied calls (tr ++ [(i, e)]) id = applied calls tr id ++ [body] := by
  obtain ⟨hlt, hget⟩ := List.getElem?_eq_some_iff.mp hi
  have hsplit : calls = calls.take i ++ call :: calls.drop (i + 1) := by
    rw [← hget, List.getElem_cons_drop, List.take_append_drop]
  have hlength : (calls.take i).length = i := by
    rw [List.length_take]
    omega
  have hnow : savedBy (tr ++ [(i, e)]) i id = true := by
    rw [savedBy_append]
    simp [hsaved]
  have hbefore : applied (calls.take i) (tr ++ [(i, e)]) id = applied (calls.take i) tr id := by
    refine applied_same fun j call' hj _ => savedBy_other ?_
    have := (List.getElem?_eq_some_iff.mp hj).1
    omega
  have hafter : ∀ tr' : Trace, ((calls.drop (i + 1)).zipIdx (i + 1)).filterMap (fun x =>
      if savedBy tr' x.2 id then x.1.changes else none) = [] := by
    intro tr'
    rw [List.filterMap_eq_nil_iff]
    rintro ⟨call', j⟩ hx
    obtain ⟨hle, hj⟩ := List.mk_mem_zipIdx_iff_le_and_getElem?_sub.mp hx
    rw [List.getElem?_drop] at hj
    have hnone : call'.changes = none := by
      by_contra hsome
      have := hlast _ call' hj hsome
      omega
    rw [hnone, ite_self]
  have hparts : ∀ tr' : Trace, applied calls tr' id = applied (calls.take i) tr' id ++
      (if savedBy tr' i id then [body] else []) := by
    intro tr'
    conv_lhs => rw [hsplit]
    unfold applied
    rw [List.zipIdx_append, List.filterMap_append, List.zipIdx_cons, List.filterMap_cons, hlength,
      Nat.zero_add, hafter tr']
    dsimp only
    rw [hbody]
    split_ifs <;> rfl
  rw [hparts, hparts tr, hbefore, hnow, hfirst]
  simp

end Applied

end LdbBackend
