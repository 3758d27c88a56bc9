import OrderApi.Common.CacheService
import OrderApi.Text.JsonParse

/-
  What Redis really keeps: `CacheService.set` writes the JSON
  text of a response, and `CacheService.get` parses it.

  A response that is served from a text is sent with the
  same text as the response that was kept, so that clients
  see the cache of values.

  Key definitions include:
    * `CacheService.get`, `CacheService.set`
    * `CacheInterceptor.serveText`
    * `JsonVal.Response`
    * `Redis.Keeps`
    * `CacheEvent`

  Key theorems include:
    * `Redis.Keeps.serveText`
    * `sentTexts_eq`
-/

------------------------------------------------------------
-- The Service
------------------------------------------------------------

namespace OrderApi

/- The texts under each key. -/
abbrev Redis := Cache String String

namespace CacheService

/- A text that cannot be parsed counts as a miss. -/
def get
    (format : NumberFormat)
    (redis : Redis)
    (key : Option String) : Option JsonVal :=
  match redis.find? key with
  | none => none
  | some cached =>
      if cached = "" then none
      else JsonVal.parse? format cached

def set
    (redis : Redis)
    (key : Option String)
    (value : JsonVal) : Redis :=
  redis.put key (String.ofList value.json)

end CacheService

/-
  The interceptor of a cacheable route: a truthy value that
  is cached is sent, or else the response is and is kept.
-/
def CacheInterceptor.serveText
    {ε : Type}
    (format : NumberFormat)
    (redis : Redis)
    (lookupKey storeKey : Option String)
    (computed : Except ε JsonVal) :
    Except ε JsonVal × Redis :=
  let cached :=
    (CacheService.get format redis lookupKey).filter
      JsonVal.truthy
  match cached, computed with
  | some value, _ => (.ok value, redis)
  | none, .ok value =>
      (.ok value, CacheService.set redis storeKey value)
  | none, .error error => (.error error, redis)

end OrderApi

------------------------------------------------------------
-- Texts for Values
------------------------------------------------------------

namespace OrderApi

/-
  What a cacheable handler responds with: an object or an
  array, whose fields are in the order of an object and
  whose numbers are read back.
-/
structure JsonVal.Response
    (format : NumberFormat)
    (value : JsonVal) : Prop where
  own : value.Own
  readable : value.Readable format
  structured :
    (∃ items, value = .arr items) ∨
      ∃ fields, value = .obj fields

theorem JsonVal.Response.truthy_reread
    {format : NumberFormat}
    {value : JsonVal}
    (hResponse : value.Response format) :
    value.reread.truthy = true := by
  rcases hResponse.structured with
    ⟨items, rfl⟩ | ⟨fields, rfl⟩
  · rfl
  · rfl

/- The text of a response is read as what was written. -/
theorem CacheService.get_text
    {format : NumberFormat}
    {redis : Redis}
    {key : Option String}
    {value : JsonVal}
    (hResponse : value.Response format)
    (hFound :
      redis.find? key = some (String.ofList value.json)) :
    CacheService.get format redis key =
      some value.reread := by
  have hText : String.ofList value.json ≠ "" := by
    rcases value.json_starts with ⟨c, cs, hText, _, _⟩
    intro hEmpty
    have hChars := congrArg String.toList hEmpty
    rw [String.toList_ofList, hText] at hChars
    cases hChars
  unfold CacheService.get
  rw [hFound]
  simp only [if_neg hText]
  exact JsonVal.parse?_json hResponse.readable

/- Redis keeps the texts of what a cache of values keeps. -/
structure Redis.Keeps
    (format : NumberFormat)
    (redis : Redis)
    (cache : Cache String JsonVal) : Prop where
  texts :
    ∀ key,
      redis key =
        (cache key).map fun value =>
          String.ofList value.json
  responses :
    ∀ key value,
      cache key = some value → value.Response format

/- The text that a response is sent with, or its error. -/
def sentText
    {ε : Type}
    (response : Except ε JsonVal) :
    Except ε (List Char) :=
  response.map JsonVal.json

namespace Redis.Keeps

variable {format : NumberFormat} {redis : Redis}
variable {cache : Cache String JsonVal} {ε : Type}

theorem find?
    (hKeeps : redis.Keeps format cache)
    (key : Option String) :
    redis.find? key =
      (cache.find? key).map fun value =>
        String.ofList value.json := by
  cases key with
  | none => rfl
  | some key => exact hKeeps.texts key

theorem drop
    (hKeeps : redis.Keeps format cache)
    (keys : String → Bool) :
    Redis.Keeps format (Cache.drop redis keys)
      (cache.drop keys) where
  texts := by
    intro key
    unfold Cache.drop
    cases keys key with
    | true => rfl
    | false => exact hKeeps.texts key
  responses := by
    intro key value hFound
    exact
      hKeeps.responses key value
        (Cache.drop_eq_some hFound).2

theorem put
    {value : JsonVal}
    (hKeeps : redis.Keeps format cache)
    (hResponse : value.Response format)
    (key : Option String) :
    Redis.Keeps format (CacheService.set redis key value)
      (cache.put key value) where
  texts := by
    intro other
    cases key with
    | none => exact hKeeps.texts other
    | some key =>
        simp only [CacheService.set, Cache.put]
        by_cases hOther : other = key
        · subst hOther
          rw [Function.update_self, Function.update_self]
          rfl
        · rw [Function.update_of_ne hOther,
            Function.update_of_ne hOther]
          exact hKeeps.texts other
  responses := by
    intro other found hFound
    rcases Cache.put_eq_some hFound with
      ⟨_, rfl⟩ | hOlder
    · exact hResponse
    · exact hKeeps.responses other found hOlder

/- A request is answered with the text of the value. -/
theorem serveText
    {computed : Except ε JsonVal}
    (hKeeps : redis.Keeps format cache)
    (hComputed :
      ∀ value, computed = .ok value →
        value.Response format)
    (lookupKey storeKey : Option String) :
    sentText
        (CacheInterceptor.serveText format redis lookupKey
          storeKey computed).1 =
      sentText
        (cache.serve lookupKey storeKey computed).1 ∧
    Redis.Keeps format
      (CacheInterceptor.serveText format redis lookupKey
        storeKey computed).2
      (cache.serve lookupKey storeKey computed).2 := by
  have hText := hKeeps.find? lookupKey
  cases hCached : cache.find? lookupKey with
  | some value =>
      rw [hCached] at hText
      have hResponse : value.Response format := by
        cases lookupKey with
        | none => cases hCached
        | some key => exact hKeeps.responses key value hCached
      have hGet := CacheService.get_text hResponse hText
      have hTruthy := hResponse.truthy_reread
      simp only [CacheInterceptor.serveText, hGet,
        Option.filter_some, hTruthy, if_true, Cache.serve,
        hCached]
      refine ⟨?_, hKeeps⟩
      exact
        congrArg Except.ok
          (value.json_reread hResponse.own)
  | none =>
      rw [hCached] at hText
      have hGet :
          CacheService.get format redis lookupKey = none := by
        unfold CacheService.get
        rw [hText]
        rfl
      cases computed with
      | error error =>
          simp only [CacheInterceptor.serveText, hGet,
            Option.filter_none, Cache.serve, hCached]
          exact ⟨trivial, hKeeps⟩
      | ok value =>
          simp only [CacheInterceptor.serveText, hGet,
            Option.filter_none, Cache.serve, hCached]
          exact
            ⟨trivial,
              hKeeps.put (hComputed value rfl) storeKey⟩

end Redis.Keeps

end OrderApi

------------------------------------------------------------
-- Sequences of Requests
------------------------------------------------------------

namespace OrderApi

/- What happens to a cache: a request, or keys are dropped. -/
inductive CacheEvent (ε : Type) where
  | serve
      (lookupKey storeKey : Option String)
      (computed : Except ε JsonVal)
  | drop (keys : String → Bool)

namespace CacheEvent

variable {ε : Type}

/- The responses from a cache of values. -/
def values (cache : Cache String JsonVal) :
    List (CacheEvent ε) → List (Except ε JsonVal)
  | [] => []
  | serve lookupKey storeKey computed :: events =>
      let served := cache.serve lookupKey storeKey computed
      served.1 :: values served.2 events
  | drop keys :: events => values (cache.drop keys) events

/- The responses from the texts in Redis. -/
def valuesOfTexts
    (format : NumberFormat)
    (redis : Redis) :
    List (CacheEvent ε) → List (Except ε JsonVal)
  | [] => []
  | serve lookupKey storeKey computed :: events =>
      let served :=
        CacheInterceptor.serveText format redis lookupKey
          storeKey computed
      served.1 :: valuesOfTexts format served.2 events
  | drop keys :: events =>
      valuesOfTexts format (Cache.drop redis keys) events

/- What the handler of a request responds with. -/
def Responds
    (format : NumberFormat) : CacheEvent ε → Prop
  | serve _ _ computed =>
      ∀ value, computed = .ok value → value.Response format
  | drop _ => True

theorem texts_of_keeps
    {format : NumberFormat}
    {redis : Redis}
    {cache : Cache String JsonVal}
    {events : List (CacheEvent ε)}
    (hKeeps : redis.Keeps format cache)
    (hResponds : ∀ event ∈ events, event.Responds format) :
    (valuesOfTexts format redis events).map sentText =
      (values cache events).map sentText := by
  induction events generalizing redis cache with
  | nil => rfl
  | cons event events ih =>
      rcases List.forall_mem_cons.mp hResponds with
        ⟨hEvent, hRest⟩
      cases event with
      | drop keys => exact ih (hKeeps.drop keys) hRest
      | serve lookupKey storeKey computed =>
          rcases hKeeps.serveText hEvent lookupKey storeKey
            with ⟨hText, hNext⟩
          simp only [valuesOfTexts, values, List.map_cons,
            hText, ih hNext hRest]

end CacheEvent

/-
  Whatever is asked for and dropped, in whatever order: each
  request is answered with the text of the response that a
  cache of the values themselves would give.
-/
theorem sentTexts_eq
    {ε : Type}
    {format : NumberFormat}
    {events : List (CacheEvent ε)}
    (hResponds : ∀ event ∈ events, event.Responds format) :
    (CacheEvent.valuesOfTexts format Cache.empty events).map
        sentText =
      (CacheEvent.values Cache.empty events).map
        sentText := by
  apply CacheEvent.texts_of_keeps _ hResponds
  exact
    { texts := fun _ => rfl
      responses := fun _ _ hFound => by cases hFound }

end OrderApi

------------------------------------------------------------
-- A Miss, a Hit and a Miss
------------------------------------------------------------

namespace OrderApi

namespace CachedPage

/- A format that reads no number. -/
def format : NumberFormat := ⟨fun _ => .infinite⟩

def key : Option String := some "t1:ProductController"

def page : JsonVal :=
  .obj [("data", .arr [.str "cup"])]

def error : Except String JsonVal := .error "not found"

/- A page is kept, and asked for again until it is gone. -/
def events : List (CacheEvent String) :=
  [.serve key key (.ok page), .serve key key error,
    .drop fun _ => true, .serve key key error]

theorem response : page.Response format where
  own := ⟨rfl, ⟨trivial, trivial⟩, trivial⟩
  readable := ⟨⟨trivial, trivial⟩, trivial⟩
  structured := .inr ⟨_, rfl⟩

end CachedPage

theorem sentTexts_eq_of_page :
    (CacheEvent.valuesOfTexts CachedPage.format Cache.empty
        CachedPage.events).map sentText =
      [.ok CachedPage.page.json, .ok CachedPage.page.json,
        .error "not found"] := by
  have hResponds :
      ∀ event ∈ CachedPage.events,
        event.Responds CachedPage.format := by
    simp only [CachedPage.events, List.forall_mem_cons,
      List.not_mem_nil, false_implies, implies_true,
      and_true]
    refine ⟨?_, ?_, trivial, ?_⟩
    · intro value hComputed
      cases hComputed
      exact CachedPage.response
    · intro value hComputed
      cases hComputed
    · intro value hComputed
      cases hComputed
  rw [sentTexts_eq hResponds]
  rfl

end OrderApi
