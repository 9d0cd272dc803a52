/-
The request body limit (`service.py`).

The application is any program that receives and sends, and may handle what
`limited_receive` raises and receive again.  Each message it asks for is any message.
-/
import EdgeFort.Effect.Program
import EdgeFort.Effect.System
import EdgeFort.Json.Text
import EdgeFort.Service.Headers

namespace EdgeFort
namespace Service

open Effect

/-- What `receive` answers with.  The keys of a request message may be missing. -/
inductive Message where
  | request (body : Option Bytes) (moreBody : Option Bool)
  | other (type : PyStr)
  deriving DecidableEq, Repr

namespace Message

/-- `len(message.get("body", b""))` of a request message -/
def size : Message → Nat
  | request body _ => (body.getD []).length
  | other _ => 0

def isRequest : Message → Bool
  | request .. => true
  | other _ => false

/-- `not message.get("more_body", False)` of a request message -/
def ends : Message → Bool
  | request _ moreBody => !moreBody.getD false
  | other _ => false

end Message

def bodyBytes (ms : List Message) : Nat := (ms.map Message.size).sum

inductive Raised where
  | payloadTooLarge
  | invalidBodyFraming
  | error (e : PyError)
  deriving DecidableEq, Repr

/-- What an application does, where `μ` are the messages it sends. -/
inductive AppOp (μ : Type) where
  | receive
  | send (message : μ)

@[reducible] def AppOp.Res {μ : Type} : AppOp μ → Type
  | .receive => Message
  | .send _ => Unit

abbrev Application (μ : Type) := Prog (AppOp μ) AppOp.Res Raised Unit

/-! ## `RequestBodyLimitMiddleware` -/

/-- `int(raw_length)` of decimal digits, which raises for too many of them. -/
def intOfDigits (b : Bytes) : Option Nat :=
  if Json.maxStrDigits < b.length then none else some (digitsValue b)

/-- The checks before the application is called, giving the declared length. -/
def framing (maxBytes : Nat) (headers : Headers) : Except JsonResponse (Option Nat) :=
  let lengths := headerValues (headerName "content-length") headers
  let transferEncodings := headerValues (headerName "transfer-encoding") headers
  if 1 < lengths.length ∨ 1 < transferEncodings.length ∨
      lengths ≠ [] ∧ transferEncodings ≠ [] then
    .error ⟨"ambiguous request body framing", 400⟩
  else
    match lengths with
    | [] => .ok none
    | rawLength :: _ =>
      if isdigit rawLength = false then .error ⟨"invalid content-length", 400⟩
      else
        match intOfDigits rawLength with
        | none => .error ⟨"invalid content-length", 400⟩
        | some contentLength =>
          if maxBytes < contentLength then .error ⟨"request body too large", 413⟩
          else .ok (some contentLength)

/-- `limited_receive` on the message it has received, with `seen` before and after. -/
def limitedReceive (maxBytes : Nat) (contentLength : Option Nat) (seen : Nat)
    (message : Message) : Except Raised Message × Nat :=
  if message.isRequest then
    let seen := seen + message.size
    if maxBytes < seen then (.error .payloadTooLarge, seen)
    else if contentLength.any (· < seen) then (.error .invalidBodyFraming, seen)
    else if message.ends ∧ contentLength.any (seen ≠ ·) then (.error .invalidBodyFraming, seen)
    else (.ok message, seen)
  else (.ok message, seen)

/-- The application behind the middleware, with what is left of it.  `arrived`, `handed`
and `raised` are read by no step: the messages received, those handed on, and whether
`limited_receive` has raised. -/
structure Served (μ : Type) where
  contentLength : Option Nat
  app : Application μ
  seen : Nat
  arrived : List Message
  handed : List Message
  raised : Bool

variable {μ : Type}

/-- `__call__` up to the application's first step: a response, or the application. -/
def call (maxBytes : Nat) (headers : Headers) (app : Application μ) : JsonResponse ⊕ Served μ :=
  match framing maxBytes headers with
  | .error response => .inl response
  | .ok contentLength => .inr ⟨contentLength, app, 0, [], [], false⟩

/-- The `except` clauses around the application. -/
def respond : Raised → Except PyError JsonResponse
  | .payloadTooLarge => .ok ⟨"request body too large", 413⟩
  | .invalidBodyFraming => .ok ⟨"invalid request body framing", 400⟩
  | .error e => .error e

namespace Served

/-- The application receives `message`, through `limited_receive`. -/
def receive (maxBytes : Nat) (s : Served μ) (message : Message)
    (k : Except Raised Message → Application μ) : Served μ :=
  let (answer, seen) := limitedReceive maxBytes s.contentLength s.seen message
  { s with
    app := k answer
    seen := seen
    arrived := s.arrived ++ [message]
    handed := s.handed ++ answer.toOption.toList
    raised := s.raised || !answer.toOption.isSome }

inductive Step (maxBytes : Nat) : Served μ → Served μ → Prop
  | receive {s : Served μ} {k} (message : Message) : s.app = .op .receive k →
      Step maxBytes s (s.receive maxBytes message k)
  /-- the server's own `receive` raises -/
  | failed {s : Served μ} {k} (e : PyError) : s.app = .op .receive k →
      Step maxBytes s { s with app := k (.error (.error e)) }
  | send {s : Served μ} {m k} (r : Except Raised Unit) : s.app = .op (.send m) k →
      Step maxBytes s { s with app := k r }

end Served

/-- A request through the middleware. -/
def served (maxBytes : Nat) (headers : Headers) (app : Application μ) : System (Served μ) where
  initial s := call maxBytes headers app = .inr s
  step := Served.Step maxBytes

/-! ## What the checks establish -/

variable {maxBytes n seen : Nat} {headers : Headers} {contentLength : Option Nat}

/-- The headers state the length of the body more than once, or in two ways, or not in
decimal, or as more than the limit. -/
def Unacceptable (maxBytes : Nat) (headers : Headers) : Prop :=
  1 < (headerValues (headerName "content-length") headers).length ∨
    1 < (headerValues (headerName "transfer-encoding") headers).length ∨
    (headerValues (headerName "content-length") headers ≠ [] ∧
      headerValues (headerName "transfer-encoding") headers ≠ []) ∨
    ∃ v ∈ headerValues (headerName "content-length") headers,
      isdigit v = false ∨ maxBytes < digitsValue v

/-- A content length of `n` is declared. -/
def Declares (headers : Headers) (n : Nat) : Prop :=
  ∃ v, headerValues (headerName "content-length") headers = [v] ∧ isdigit v = true ∧ digitsValue v = n

/-- Headers that pass the checks declare the length that the middleware goes by. -/
theorem framing_ok (h : framing maxBytes headers = .ok contentLength) :
    ¬Unacceptable maxBytes headers ∧ ∀ n, Declares headers n → contentLength = some n := by
  unfold framing at h
  simp only at h
  split at h
  · cases h
  rename_i hone
  have hone := not_or.mp hone
  have hte := not_or.mp hone.2
  cases hlengths : headerValues (headerName "content-length") headers with
  | nil =>
    refine ⟨?_, ?_⟩
    · rintro (h1 | h1 | h1 | ⟨v, hv, -⟩)
      · exact hone.1 h1
      · exact hte.1 h1
      · exact hte.2 h1
      · rw [hlengths] at hv
        cases hv
    · rintro n ⟨v, hv, -⟩
      rw [hlengths] at hv
      cases hv
  | cons v rest =>
    have hrest : rest = [] := by
      have hlt := hone.1
      rw [hlengths] at hlt
      simpa using hlt
    subst hrest
    rw [hlengths] at h
    simp only at h
    split_ifs at h with hdigit
    rw [Bool.not_eq_false] at hdigit
    unfold intOfDigits at h
    split_ifs at h with hmany
    simp only at h
    split_ifs at h with hlarge
    have hvalue := Except.ok.inj h
    refine ⟨?_, ?_⟩
    · rintro (h1 | h1 | h1 | ⟨w, hw, hbad⟩)
      · exact hone.1 h1
      · exact hte.1 h1
      · exact hte.2 h1
      · rw [hlengths] at hw
        rw [List.mem_singleton.mp hw] at hbad
        rcases hbad with hbad | hbad
        · rw [hdigit] at hbad
          cases hbad
        · exact hlarge hbad
    · rintro n ⟨w, hw, -, hn⟩
      rw [hlengths] at hw
      rw [← hvalue, List.singleton_inj.mp hw, hn]

/-! ## What the application is handed -/

/-- ASGI: no request message follows the one that ends the body. -/
def Asgi (ms : List Message) : Prop :=
  ms.Pairwise fun m m' => m.ends = true → m'.isRequest = false

/-- Where the end of the body has been handed on, `n` bytes have been. -/
def EndsAt (n : Nat) (ms : List Message) : Prop :=
  ∀ pre m post, ms = pre ++ m :: post → m.ends = true → bodyBytes (pre ++ [m]) = n

/-- What `limited_receive` has let through. -/
structure Limited (maxBytes : Nat) (s : Served μ) : Prop where
  seen : s.seen = bodyBytes s.arrived
  handed : bodyBytes s.handed ≤ s.seen
  whole : s.raised = false → s.handed = s.arrived
  max : bodyBytes s.handed ≤ maxBytes
  declared : ∀ n, s.contentLength = some n → bodyBytes s.handed ≤ n
  /-- once it has raised, no message that ends the body can pass any more -/
  stuck : s.raised = true → maxBytes < s.seen ∨ (∃ n, s.contentLength = some n ∧ n < s.seen) ∨
    ∃ m ∈ s.arrived, m.ends = true
  ends : ∀ n, s.contentLength = some n → (Asgi s.arrived ∨ s.raised = false) → EndsAt n s.handed

theorem bodyBytes_append (ms : List Message) (m : Message) :
    bodyBytes (ms ++ [m]) = bodyBytes ms + m.size := by
  simp [bodyBytes]

theorem endsAt_append {ms : List Message} {m : Message} :
    EndsAt n (ms ++ [m]) ↔ EndsAt n ms ∧ (m.ends = true → bodyBytes (ms ++ [m]) = n) := by
  constructor
  · intro h
    refine ⟨fun pre m' post hms he => ?_, fun he => h ms m [] rfl he⟩
    exact h pre m' (post ++ [m]) (by simp [hms]) he
  · rintro ⟨hold, hnew⟩ pre m' post hms he
    rcases List.eq_nil_or_concat post with rfl | ⟨post', x, rfl⟩
    · obtain ⟨rfl, hm⟩ := List.append_inj' hms rfl
      obtain rfl := List.singleton_inj.mp hm
      exact hnew he
    · have hsplit : ms ++ [m] = (pre ++ m' :: post') ++ [x] := by simpa using hms
      exact hold pre m' post' (List.append_inj' hsplit rfl).1 he

theorem Message.isRequest_of_ends {m : Message} (h : m.ends = true) : m.isRequest = true := by
  cases m with
  | request body moreBody => rfl
  | other type => cases h

/-- The answer to a message: it is let through with the count so far in bounds, or
refused for what it counts to. -/
theorem limitedReceive_cases (maxBytes : Nat) (contentLength : Option Nat) (seen : Nat)
    (m : Message) :
    (limitedReceive maxBytes contentLength seen m).2 = seen + m.size ∧
      ((limitedReceive maxBytes contentLength seen m).1 = .ok m ∧
          (m.isRequest = true → seen + m.size ≤ maxBytes ∧
            ∀ n, contentLength = some n → seen + m.size ≤ n ∧
              (m.ends = true → seen + m.size = n)) ∨
        (∃ e, (limitedReceive maxBytes contentLength seen m).1 = .error e) ∧
          (maxBytes < seen + m.size ∨ (∃ n, contentLength = some n ∧ n < seen + m.size) ∨
            m.ends = true)) := by
  cases m with
  | other type => exact ⟨rfl, Or.inl ⟨rfl, nofun⟩⟩
  | request body moreBody =>
    unfold limitedReceive
    simp only [Message.isRequest, if_true]
    generalize hseen : seen + (Message.request body moreBody).size = total
    split_ifs with hmax hlen hend
    · exact ⟨rfl, Or.inr ⟨⟨_, rfl⟩, Or.inl hmax⟩⟩
    · cases contentLength with
      | none => cases hlen
      | some n => exact ⟨rfl, Or.inr ⟨⟨_, rfl⟩, Or.inr (Or.inl ⟨n, rfl, by simpa using hlen⟩)⟩⟩
    · exact ⟨rfl, Or.inr ⟨⟨_, rfl⟩, Or.inr (Or.inr hend.1)⟩⟩
    · refine ⟨rfl, Or.inl ⟨rfl, fun _ => ⟨Nat.le_of_not_lt hmax, ?_⟩⟩⟩
      rintro n rfl
      have hle : total ≤ n := by simpa using hlen
      exact ⟨hle, fun he => by simpa [he] using hend⟩

variable {s t : Served μ} {app : Application μ}

theorem Limited.start : Limited maxBytes
    (⟨contentLength, app, 0, [], [], false⟩ : Served μ) where
  seen := rfl
  handed := Nat.le_refl 0
  whole _ := rfl
  max := Nat.zero_le _
  declared _ _ := Nat.zero_le _
  stuck := nofun
  ends _ _ _ pre m post h := absurd h (by simp)

/-- A message that is let through. -/
theorem Limited.handOn (h : Limited maxBytes s) {m : Message} {k : Application μ}
    (hm : m.isRequest = true → s.seen + m.size ≤ maxBytes ∧
      ∀ n, s.contentLength = some n → s.seen + m.size ≤ n ∧
        (m.ends = true → s.seen + m.size = n)) :
    Limited maxBytes { s with
      app := k
      seen := s.seen + m.size
      arrived := s.arrived ++ [m]
      handed := s.handed ++ [m] } := by
  have hhanded := h.handed
  have hsize : m.isRequest = false → m.size = 0 := by
    cases m <;> simp [Message.isRequest, Message.size]
  refine ⟨?_, ?_, fun hr => ?_, ?_, fun n hn => ?_, fun hr => ?_, fun n hn hasgi => ?_⟩
  · show s.seen + m.size = bodyBytes (s.arrived ++ [m])
    rw [bodyBytes_append, h.seen]
  · show bodyBytes (s.handed ++ [m]) ≤ s.seen + m.size
    rw [bodyBytes_append]
    omega
  · show s.handed ++ [m] = s.arrived ++ [m]
    rw [h.whole hr]
  · show bodyBytes (s.handed ++ [m]) ≤ maxBytes
    rw [bodyBytes_append]
    cases hreq : m.isRequest with
    | true =>
      have := (hm hreq).1
      omega
    | false =>
      have := hsize hreq
      have := h.max
      omega
  · show bodyBytes (s.handed ++ [m]) ≤ n
    rw [bodyBytes_append]
    cases hreq : m.isRequest with
    | true =>
      have := ((hm hreq).2 n hn).1
      omega
    | false =>
      have := hsize hreq
      have := h.declared n hn
      omega
  · rcases h.stuck hr with hs | ⟨n, hn, hs⟩ | ⟨m', hm', he⟩
    · exact Or.inl (Nat.lt_of_lt_of_le hs (Nat.le_add_right _ _))
    · exact Or.inr (Or.inl ⟨n, hn, Nat.lt_of_lt_of_le hs (Nat.le_add_right _ _)⟩)
    · exact Or.inr (Or.inr ⟨m', List.mem_append_left _ hm', he⟩)
  · have hbefore : Asgi s.arrived ∨ s.raised = false :=
      hasgi.imp (fun ha => (List.pairwise_append.mp ha).1) id
    refine endsAt_append.mpr ⟨h.ends n hn hbefore, fun he => ?_⟩
    have hreq := Message.isRequest_of_ends he
    obtain ⟨hmax, hlen⟩ := hm hreq
    obtain ⟨hle, hend⟩ := hlen n hn
    -- nothing was refused before, or this message could not have passed
    have hclean : s.raised = false := by
      by_contra hr
      rcases h.stuck (by simpa using hr) with hs | ⟨n', hn', hs⟩ | ⟨m', hm', he'⟩
      · omega
      · obtain rfl := Option.some.inj (hn.symm.trans hn')
        omega
      · rcases hasgi with ha | hf
        · have hlast := (List.pairwise_append.mp ha).2.2 m' hm' m List.mem_cons_self he'
          rw [hreq] at hlast
          cases hlast
        · exact hr hf
    rw [bodyBytes_append, h.whole hclean, ← h.seen]
    exact hend he

/-- A message that is refused. -/
theorem Limited.refuse (h : Limited maxBytes s) {m : Message} {k : Application μ}
    (hm : maxBytes < s.seen + m.size ∨
      (∃ n, s.contentLength = some n ∧ n < s.seen + m.size) ∨ m.ends = true) :
    Limited maxBytes { s with
      app := k
      seen := s.seen + m.size
      arrived := s.arrived ++ [m]
      raised := true } := by
  have hhanded := h.handed
  refine ⟨?_, ?_, nofun, h.max, h.declared, fun _ => ?_, fun n hn hasgi => ?_⟩
  · show s.seen + m.size = bodyBytes (s.arrived ++ [m])
    rw [bodyBytes_append, h.seen]
  · show bodyBytes s.handed ≤ s.seen + m.size
    omega
  · refine hm.imp id (Or.imp id fun he => ⟨m, ?_, he⟩)
    exact List.mem_append_right _ List.mem_cons_self
  · rcases hasgi with ha | hf
    · exact h.ends n hn (Or.inl (List.pairwise_append.mp ha).1)
    · cases hf

theorem Limited.step (h : Limited maxBytes s) (ht : Served.Step maxBytes s t) :
    Limited maxBytes t := by
  cases ht with
  | failed e hs => exact ⟨h.seen, h.handed, h.whole, h.max, h.declared, h.stuck, h.ends⟩
  | send r hs => exact ⟨h.seen, h.handed, h.whole, h.max, h.declared, h.stuck, h.ends⟩
  | receive m hs =>
    obtain ⟨hseen, hcases⟩ := limitedReceive_cases maxBytes s.contentLength s.seen m
    unfold Served.receive
    simp only [hseen]
    rcases hcases with ⟨hok, hm⟩ | ⟨⟨e, herror⟩, hm⟩
    · simpa [hok, Except.toOption] using h.handOn hm
    · simpa [herror, Except.toOption] using h.refuse hm

/-- In every state of a request the checks have passed, and what has been handed on is
limited. -/
theorem served_limited (hs : (served maxBytes headers app).Reachable s) :
    framing maxBytes headers = .ok s.contentLength ∧ Limited maxBytes s := by
  refine System.invariant
    (fun s => framing maxBytes headers = .ok s.contentLength ∧ Limited maxBytes s) ?_ ?_ hs
  · intro s hs
    simp only [served, call] at hs
    split at hs
    · cases hs
    · rename_i hok
      rw [← Sum.inr.inj hs]
      exact ⟨hok, .start⟩
  · rintro s t ⟨hok, hl⟩ ht
    refine ⟨?_, hl.step ht⟩
    cases ht with
    | receive | failed | send => exact hok

/-- An application that lets a refusal through is answered for with 413 where too much has
arrived, and with 400 where that is not what was declared. -/
theorem refusal_answered (hs : (served maxBytes headers app).Reachable s) {m : Message}
    {e : Raised} (h : (limitedReceive maxBytes s.contentLength s.seen m).1 = .error e) :
    (maxBytes < bodyBytes (s.arrived ++ [m]) ∧
        respond e = .ok ⟨"request body too large", 413⟩) ∨
      (bodyBytes (s.arrived ++ [m]) ≤ maxBytes ∧
        (∃ n, s.contentLength = some n ∧ bodyBytes (s.arrived ++ [m]) ≠ n) ∧
        respond e = .ok ⟨"invalid request body framing", 400⟩) := by
  rw [bodyBytes_append, ← (served_limited hs).2.seen]
  unfold limitedReceive at h
  simp only at h
  split_ifs at h with hrequest hmax hlen hend
  · obtain rfl := Except.error.inj h
    exact Or.inl ⟨hmax, rfl⟩
  · obtain rfl := Except.error.inj h
    obtain ⟨n, hn, hlt⟩ := (Option.any_eq_true _ _).mp hlen
    exact Or.inr ⟨Nat.le_of_not_lt hmax, ⟨n, hn, Nat.ne_of_gt (of_decide_eq_true hlt)⟩, rfl⟩
  · obtain rfl := Except.error.inj h
    obtain ⟨n, hn, hne⟩ := (Option.any_eq_true _ _).mp hend.2
    exact Or.inr ⟨Nat.le_of_not_lt hmax, ⟨n, hn, of_decide_eq_true hne⟩, rfl⟩

/-- Requests with unacceptable framing are answered without the application.  Any other
application gets at most `maxBytes` body bytes and at most the declared length, and sees
the end of the body at exactly that length: whatever it does with exceptions if the
server ends the body once, and on any messages if `receive` has not raised. -/
theorem body_limited (maxBytes : Nat) (headers : Headers) (app : Application μ) :
    (Unacceptable maxBytes headers → ∃ response, call maxBytes headers app = .inl response) ∧
      ∀ s, (served maxBytes headers app).Reachable s →
        bodyBytes s.handed ≤ maxBytes ∧ ∀ n, Declares headers n → bodyBytes s.handed ≤ n ∧
          (Asgi s.arrived ∨ s.raised = false → EndsAt n s.handed) := by
  refine ⟨fun hbad => ?_, fun s hs => ?_⟩
  · unfold call
    cases hframing : framing maxBytes headers with
    | error response => exact ⟨response, rfl⟩
    | ok contentLength => exact absurd hbad (framing_ok hframing).1
  · obtain ⟨hok, hl⟩ := served_limited hs
    refine ⟨hl.max, fun n hn => ?_⟩
    have hlength := (framing_ok hok).2 n hn
    exact ⟨hl.declared n hlength, hl.ends n hlength⟩

/-- Three bytes of a declared three, in two chunks. -/
theorem body_limited_sample : ∃ s : Served Unit,
    s.handed = [.request (some [1, 2]) (some true), .request (some [3]) none] ∧
      EndsAt 3 s.handed := by
  let headers : Headers := [(headerName "Content-Length", headerName "3")]
  let app : Application Unit := .op .receive fun _ => .op .receive fun _ => .pure ()
  let start : Served Unit := ⟨some 3, app, 0, [], [], false⟩
  have hstart : (served 3 headers app).Reachable start := .initial (by rfl)
  have hfirst := hstart.step (.receive (.request (some [1, 2]) (some true)) rfl)
  have hsecond := hfirst.step (.receive (.request (some [3]) none) rfl)
  refine ⟨_, ?_, ((body_limited 3 headers app).2 _ hsecond).2 3 ⟨_, rfl, rfl, rfl⟩ |>.2 ?_⟩
  · rfl
  · exact Or.inr rfl

end Service
end EdgeFort
