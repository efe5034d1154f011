import LdbBackend.Payments.Wallet

/-!
# The books

What the tables say about payments, without the columns the service makes up itself: row identifiers,
timestamps and the reference generated for a payment that brings none. Rows that hang on a transaction
are known by its request id.
-/

namespace LdbBackend

open Fixed Effects Table

/-- The payload has a `merchantTxRef` of its own. -/
def Json.bringsReference (payload : Json) : Bool :=
  match payload.get "data" (.obj []) >>= (·.get "transaction" (.obj [])) >>= (·.get "merchantTxRef" .null) with
  | .ok reference => reference.truthy
  | .error _ => false

/-- The columns of a transaction that come from its payload and its routing. -/
def Transaction.content (t : Transaction) : Transaction :=
  { t with
    id := 0
    createdAt := 0
    merchantTxRef := if t.rawPayload.bringsReference then t.merchantTxRef else none }

def Tables.requestOf (db : Tables) (transactionId : UUID) : Option String :=
  ((db.transactions.map fun t => (t.id, t.nombaRequestId)).find? (·.1 = transactionId)).map (·.2)

structure Books where
  wallets : List (UUID × Cents)
  transactions : List Transaction
  suspense : List (Option String × SuspenseReason × Cents)
  decisions : List (Option String × Option Cents × Cents × Decision × Json)
  processed : List (String × String)

def Tables.books (db : Tables) : Books where
  wallets := db.customers.map fun c => (c.id, c.walletBalance)
  transactions := db.transactions.map Transaction.content
  suspense := db.suspenseLogs.map fun l => (db.requestOf l.transactionId, l.reason, l.amount)
  decisions := db.reconciliationLogs.map fun l =>
    (db.requestOf l.transactionId, l.expectedAmount, l.receivedAmount, l.decision, l.details)
  processed := db.processedWebhookEvents.map fun e => (e.requestId, e.eventType)

/-- Two transactions that differ only in columns the service makes up. -/
structure Transaction.Alike (t u : Transaction) : Prop where
  id : u.id = t.id
  content : u.content = t.content

theorem Transaction.Alike.request {t u : Transaction} (h : t.Alike u) :
    u.nombaRequestId = t.nombaRequestId := by
  show u.content.nombaRequestId = t.content.nombaRequestId
  rw [h.content]

theorem Transaction.Alike.amount {t u : Transaction} (h : t.Alike u) : u.amount = t.amount := by
  show u.content.amount = t.content.amount
  rw [h.content]

/-- The books do not tell two such transactions apart. -/
theorem books_alike {db db' : Tables} {t u : Transaction} {rows : List Transaction} (h : t.Alike u)
    (ht : db.transactions = rows ++ [t]) (hu : db' = { db with transactions := rows ++ [u] }) :
    db'.books = db.books := by
  have hrequest : db'.requestOf = db.requestOf := by
    funext i
    simp [Tables.requestOf, hu, ht, h.id, h.request]
  unfold Tables.books
  rw [hrequest, hu, ht]
  simp [h.content]

end LdbBackend
