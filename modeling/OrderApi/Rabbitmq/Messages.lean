import OrderApi.Model.Registry
import OrderApi.Text.JsonParse

/-
  The messages of `src/rabbitmq/rabbitmq.service.ts` as they
  stand in the queues: what the publishers write, and what
  the consumers read.

  A publisher writes a record of strings.  A text that is no
  such record is never published; a consumer that finds one
  fails.

  Key definitions include:
    * `recordText`
    * `readMessage`
    * `OrderProcessingMessage.content`, `ofContent`
    * `OrderCompletedMessage.content`, `ofContent`
    * `DatabaseCreationMessage.content`, `ofContent`

  Key theorems include:
    * `parse?_recordText`
    * `messages_read_back`
-/

------------------------------------------------------------
-- Records of Strings
------------------------------------------------------------

namespace OrderApi

abbrev TextField := String × String

def TextField.value (field : TextField) : JsonField :=
  (field.1, .str field.2)

/- `JSON.stringify` of a record of strings. -/
def recordText (fields : List TextField) : String :=
  String.ofList
    (JsonVal.obj (fields.map TextField.value)).json

/- `data[key]`, for a field that is a string. -/
def JsonVal.textField? (data : JsonVal) (key : String) :
    Option String :=
  match data with
  | .obj fields =>
      match fields.find? fun field => field.1 = key with
      | some (_, .str text) => some text
      | _ => none
  | _ => none

/- What `JSON.parse` throws. -/
def syntaxError : ApiError :=
  ⟨.internal, "Unexpected token in JSON"⟩

/- What a handler throws on a record without its fields. -/
def fieldMissing : ApiError :=
  ⟨.internal, "Argument is missing."⟩

/- The record in the content of a message. -/
def readMessage {α : Type}
    (format : NumberFormat)
    (ofData : JsonVal → Option α)
    (content : String) : Except ApiError α :=
  match JsonVal.parse? format content with
  | none => .error syntaxError
  | some data =>
      match ofData data with
      | none => .error fieldMissing
      | some message => .ok message

theorem fieldsReadable_text
    (format : NumberFormat)
    (fields : List TextField) :
    fieldsReadable format (fields.map TextField.value) := by
  induction fields with
  | nil => trivial
  | cons field fields ih => exact ⟨trivial, ih⟩

theorem rereadFields_text (fields : List TextField) :
    rereadFields (fields.map TextField.value) =
      fields.map TextField.value := by
  induction fields with
  | nil => rfl
  | cons field fields ih =>
      rw [List.map_cons, TextField.value, rereadFields, ih]
      rfl

/- A record with proper names is read as it was written. -/
theorem parse?_recordText
    (format : NumberFormat)
    {fields : List TextField}
    (hPlain :
      ∀ field ∈ fields, arrayIndex? field.1 = none)
    (hKeys : (fields.map Prod.fst).Nodup) :
    JsonVal.parse? format (recordText fields) =
      some (.obj (fields.map TextField.value)) := by
  have hOwn :
      ownFields (fields.map TextField.value) =
        fields.map TextField.value := by
    apply ownFields_plain
    · intro field hMem
      rcases List.mem_map.mp hMem with ⟨text, hText, rfl⟩
      exact hPlain text hText
    · rw [List.map_map]
      exact hKeys
  have hRead :=
    JsonVal.parse?_json
      (v := .obj (fields.map TextField.value))
      (fieldsReadable_text format fields)
  unfold recordText
  rw [hRead, JsonVal.reread, rereadFields_text, hOwn]

theorem readMessage_recordText
    {α : Type}
    {format : NumberFormat}
    {ofData : JsonVal → Option α}
    {fields : List TextField}
    {message : α}
    (hPlain :
      ∀ field ∈ fields, arrayIndex? field.1 = none)
    (hKeys : (fields.map Prod.fst).Nodup)
    (hData :
      ofData (.obj (fields.map TextField.value)) =
        some message) :
    readMessage format ofData (recordText fields) =
      .ok message := by
  simp only [readMessage,
    parse?_recordText format hPlain hKeys, hData]

end OrderApi

------------------------------------------------------------
-- Messages
------------------------------------------------------------

namespace OrderApi

namespace OrderProcessingMessage

def fields (message : OrderProcessingMessage) :
    List TextField :=
  [("orderId", message.orderId), ("userId", message.userId),
    ("tenantCode", message.tenantCode)]

/- `JSON.stringify({ orderId, userId, tenantCode })` -/
def content (message : OrderProcessingMessage) : String :=
  recordText message.fields

def ofData (data : JsonVal) :
    Option OrderProcessingMessage := do
  let orderId ← data.textField? "orderId"
  let userId ← data.textField? "userId"
  let tenantCode ← data.textField? "tenantCode"
  pure
    { orderId := orderId
      userId := userId
      tenantCode := tenantCode }

def ofContent (format : NumberFormat) :
    String → Except ApiError OrderProcessingMessage :=
  readMessage format ofData

theorem ofContent_content
    (format : NumberFormat)
    (message : OrderProcessingMessage) :
    ofContent format message.content = .ok message := by
  apply readMessage_recordText
  · simp only [fields, List.forall_mem_cons]
    decide
  · simp only [fields, List.map_cons, List.map_nil]
    decide
  · rfl

end OrderProcessingMessage

namespace OrderCompletedMessage

def fields (message : OrderCompletedMessage) :
    List TextField :=
  [("orderId", message.orderId), ("userId", message.userId),
    ("tenantCode", message.tenantCode),
    ("transactionId", message.transactionId)]

/-
  `JSON.stringify({ orderId, userId, tenantCode,
  transactionId })`
-/
def content (message : OrderCompletedMessage) : String :=
  recordText message.fields

def ofData (data : JsonVal) :
    Option OrderCompletedMessage := do
  let orderId ← data.textField? "orderId"
  let userId ← data.textField? "userId"
  let tenantCode ← data.textField? "tenantCode"
  let transactionId ← data.textField? "transactionId"
  pure
    { orderId := orderId
      userId := userId
      tenantCode := tenantCode
      transactionId := transactionId }

def ofContent (format : NumberFormat) :
    String → Except ApiError OrderCompletedMessage :=
  readMessage format ofData

theorem ofContent_content
    (format : NumberFormat)
    (message : OrderCompletedMessage) :
    ofContent format message.content = .ok message := by
  apply readMessage_recordText
  · simp only [fields, List.forall_mem_cons]
    decide
  · simp only [fields, List.map_cons, List.map_nil]
    decide
  · rfl

end OrderCompletedMessage

namespace DatabaseCreationMessage

def fields (message : DatabaseCreationMessage) :
    List TextField :=
  [("userId", message.userId),
    ("tenantCode", message.tenantCode)]

/- `JSON.stringify({ userId, tenantCode })` -/
def content (message : DatabaseCreationMessage) : String :=
  recordText message.fields

def ofData (data : JsonVal) :
    Option DatabaseCreationMessage := do
  let userId ← data.textField? "userId"
  let tenantCode ← data.textField? "tenantCode"
  pure { userId := userId, tenantCode := tenantCode }

def ofContent (format : NumberFormat) :
    String → Except ApiError DatabaseCreationMessage :=
  readMessage format ofData

theorem ofContent_content
    (format : NumberFormat)
    (message : DatabaseCreationMessage) :
    ofContent format message.content = .ok message := by
  apply readMessage_recordText
  · simp only [fields, List.forall_mem_cons]
    decide
  · simp only [fields, List.map_cons, List.map_nil]
    decide
  · rfl

end DatabaseCreationMessage

/-
  Every published message is read as it was written,
  whatever characters its fields contain.
-/
theorem messages_read_back (format : NumberFormat) :
    (∀ message : OrderProcessingMessage,
      OrderProcessingMessage.ofContent format
        message.content = .ok message) ∧
    (∀ message : OrderCompletedMessage,
      OrderCompletedMessage.ofContent format
        message.content = .ok message) ∧
    (∀ message : DatabaseCreationMessage,
      DatabaseCreationMessage.ofContent format
        message.content = .ok message) :=
  ⟨OrderProcessingMessage.ofContent_content format,
    OrderCompletedMessage.ofContent_content format,
    DatabaseCreationMessage.ofContent_content format⟩

end OrderApi
