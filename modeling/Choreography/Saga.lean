import Choreography.Order
import Choreography.Payment

/-!
# The saga of one order

What the three services do for one order, without messages : the order is created, its
payment is captured or declined, a captured payment gets a verdict of Inventory, a
refused one is refunded, and Order learns of each of these facts in any order, once
each (`Saga.Step`). A fact is `Published` once its service has committed it, and `seen`
once Order has applied it.

`Saga.Inv` is what every saga keeps. From it : a confirmed order is paid and reserved
(`Inv.confirmed`), a fact that Order cannot apply yet waits for one that it has not seen
(`Inv.premature`), a saga that is at rest is over (`Inv.rest`), and a cancellation
leaves a captured payment behind exactly when the refusal is applied to a PENDING order
(`Inv.compensated_deliver_iff`).
-/

namespace Choreography

open OrderService (Trigger apply)

/-- What Inventory answers a reservation request. -/
inductive Verdict
  | reserved
  | refused
  deriving DecidableEq, Repr

/-- The state of a saga. -/
@[ext]
structure Saga where
  /-- The status of the order, once it exists. -/
  order : Option OrderService.Status
  /-- The status of the payment, once it exists. -/
  payment : Option PaymentService.Status
  /-- Inventory's verdict, once there is one. -/
  verdict : Option Verdict
  /-- The facts that Order has applied. -/
  seen : Trigger → Bool

namespace Saga

/-- A saga that has not begun. -/
def init : Saga := ⟨none, none, none, fun _ => false⟩

/-- The fact behind a trigger is committed by the service it comes from. -/
def Published (s : Saga) : Trigger → Prop
  | .paymentProcessed => s.payment = some .processed ∨ s.payment = some .refunded
  | .paymentFailed => s.payment = some .failed
  | .inventoryReserved => s.verdict = some .reserved
  | .inventoryReservationFail => s.verdict = some .refused
  | .paymentRefunded => s.payment = some .refunded

/-- The topics of the events that a service has committed for the saga, in order. -/
def topics (s : Saga) : Service → List Topic
  | .order =>
    match s.order with
    | none => []
    | some .cancelled => [.orderCreated, .orderCancelled]
    | some _ => [.orderCreated]
  | .payment =>
    match s.payment with
    | none => []
    | some .processed => [.paymentProcessed]
    | some .failed => [.paymentFailed]
    | some .refunded => [.paymentProcessed, .paymentRefunded]
  | .inventory =>
    match s.verdict with
    | none => []
    | some .reserved => [.inventoryReserved]
    | some .refused => [.inventoryReservationFailed]

theorem topics_nodup (s : Saga) (svc : Service) : (s.topics svc).Nodup := by
  cases svc with
  | order => cases h : s.order with
    | none => simp [topics, h]
    | some st => cases st <;> simp [topics, h]
  | payment => cases h : s.payment with
    | none => simp [topics, h]
    | some st => cases st <;> simp [topics, h]
  | inventory => cases h : s.verdict with
    | none => simp [topics, h]
    | some v => cases v <;> simp [topics, h]

theorem service_of_mem_topics {s : Saga} {svc : Service} {topic : Topic}
    (h : topic ∈ s.topics svc) : topic.service = svc := by
  cases svc with
  | order => cases ho : s.order with
    | none => simp [topics, ho] at h
    | some st => cases st <;> simp [topics, ho] at h <;> rcases h with rfl | rfl <;> rfl
  | payment => cases hp : s.payment with
    | none => simp [topics, hp] at h
    | some st => cases st <;> simp [topics, hp] at h <;> rcases h with rfl | rfl <;> rfl
  | inventory => cases hv : s.verdict with
    | none => simp [topics, hv] at h
    | some v => cases v <;> simp [topics, hv] at h <;> rw [h] <;> rfl

/-- A fact is published exactly if an event of the saga tells it. -/
theorem published_iff {s : Saga} {t : Trigger} :
    s.Published t ↔ t.topic ∈ s.topics t.topic.service := by
  have hpayment : s.topics .payment = match s.payment with
      | none => []
      | some .processed => [.paymentProcessed]
      | some .failed => [.paymentFailed]
      | some .refunded => [.paymentProcessed, .paymentRefunded] := rfl
  have hinventory : s.topics .inventory = match s.verdict with
      | none => []
      | some .reserved => [.inventoryReserved]
      | some .refused => [.inventoryReservationFailed] := rfl
  cases t <;> simp only [Trigger.topic, Topic.service, Published, hpayment, hinventory] <;>
    split <;> simp_all

/-- A saga publishes its cancellation when Order cancels it. -/
theorem topics_apply {s : Saga} {cur : OrderService.Status} (ho : s.order = some cur) (t : Trigger)
    (seen : Trigger → Bool) (svc : Service) :
    topics { s with order := some (apply cur t).1.next, seen := seen } svc =
      if svc = .order ∧ OrderService.Cancels cur t then s.topics svc ++ [.orderCancelled]
      else s.topics svc := by
  cases svc with
  | order => cases cur <;> cases t <;> simp [topics, ho, apply, OrderService.Cancels]
  | payment => simp [topics]
  | inventory => simp [topics]

/-- One step of a saga. -/
inductive Step : Saga → Saga → Prop
  | create {s : Saga} (ho : s.order = none) : Step s { s with order := some .pending }
  | charge {s : Saga} {p : PaymentService.Status} (ho : s.order ≠ none) (hp : s.payment = none)
      (hst : p = .processed ∨ p = .failed) : Step s { s with payment := some p }
  | decide {s : Saga} (v : Verdict) (hp : s.Published .paymentProcessed) (hv : s.verdict = none) :
      Step s { s with verdict := some v }
  | refund {s : Saga} (hp : s.payment = some .processed) (hv : s.verdict = some .refused) :
      Step s { s with payment := some .refunded }
  | deliver {s : Saga} (t : Trigger) (cur : OrderService.Status) (ho : s.order = some cur)
      (hpub : s.Published t) (hnew : s.seen t = false) (hok : (apply cur t).2 = none) :
      Step s { s with
        order := some (apply cur t).1.next
        seen := Function.update s.seen t true }

/-- What the facts seen so far say about the status of the order. -/
def StatusInv (seen : Trigger → Bool) : Option OrderService.Status → Prop
  | none => ∀ t, seen t = false
  | some .pending => ∀ t, seen t = false
  | some .paymentOk => seen .paymentProcessed = true ∧ seen .inventoryReserved = false ∧
      seen .inventoryReservationFail = false ∧ seen .paymentRefunded = false
  | some .confirmed => seen .paymentProcessed = true ∧ seen .inventoryReserved = true
  | some .compensating => seen .paymentProcessed = true ∧
      seen .inventoryReservationFail = true ∧ seen .paymentRefunded = false
  | some .cancelled => seen .paymentFailed = true ∨ seen .inventoryReservationFail = true

/-- What every saga keeps. -/
structure Inv (s : Saga) : Prop where
  seen : ∀ t, s.seen t = true → s.Published t
  created : s.payment ≠ none → s.order ≠ none
  captured : s.verdict ≠ none → s.Published .paymentProcessed
  refunded : s.payment = some .refunded → s.verdict = some .refused
  status : StatusInv s.seen s.order

theorem inv_init : Inv init :=
  ⟨by simp [init], by simp [init], by simp [init], by simp [init], fun _ => rfl⟩

variable {s s' : Saga}

/-- A published fact stays published. -/
theorem Step.published (h : Step s s') (hs : Inv s) {t : Trigger} (ht : s.Published t) :
    s'.Published t := by
  cases h with
  | create ho => exact ht
  | charge ho hp hst =>
    have hv : s.verdict = none := by
      by_contra hv
      simpa [Published, hp] using hs.captured hv
    cases t <;> simp [Published, hp, hv] at ht
  | decide v hp hv => cases t <;> simp_all [Published]
  | refund hp hv => cases t <;> simp_all [Published]
  | deliver t' cur ho hpub hnew hok => exact ht

theorem Inv.step (hs : Inv s) (h : Step s s') : Inv s' := by
  have hpub : ∀ t, s.seen t = true → s'.Published t := fun t ht => h.published hs (hs.seen t ht)
  have hstatus := hs.status
  cases h with
  | create ho =>
    rw [ho] at hstatus
    exact ⟨hpub, by simp, hs.captured, hs.refunded, hstatus⟩
  | charge ho hp hst =>
    refine ⟨hpub, fun _ => ho, fun hv => ?_, fun hr => ?_, hstatus⟩
    · simpa [Published, hp] using hs.captured hv
    · rcases hst with rfl | rfl <;> simp at hr
  | decide v hp hv =>
    refine ⟨hpub, hs.created, fun _ => hp, fun hr => ?_, hstatus⟩
    simp [hs.refunded hr] at hv
  | refund hp hv =>
    exact ⟨hpub, fun _ => hs.created (by simp [hp]), fun _ => Or.inr rfl, fun _ => hv, hstatus⟩
  | deliver t cur ho hpub' hnew hok =>
    refine ⟨fun t' ht' => ?_, by simp, hs.captured, hs.refunded, ?_⟩
    · by_cases ht : t' = t
      · rw [ht]
        exact hpub'
      · refine hs.seen t' ?_
        rwa [← Function.update_of_ne ht true s.seen]
    · have hfailed : s.seen .paymentProcessed = true → t ≠ .paymentFailed := by
        rintro hpp rfl
        have := hs.seen _ hpp
        simp_all [Published]
      have hreserved : s.seen .inventoryReservationFail = true → t ≠ .inventoryReserved := by
        rintro hif rfl
        have := hs.seen _ hif
        simp_all [Published]
      rw [ho] at hstatus
      cases cur <;> cases t <;> simp_all [StatusInv, apply]

/-! ## What the invariant says -/

/-- A saga with a published fact has an order. -/
theorem Inv.order_of_published (hs : Inv s) {t : Trigger} (ht : s.Published t) :
    s.order ≠ none := by
  refine hs.created fun hp => ?_
  have hv : s.verdict = none := by
    by_contra hv
    simpa [Published, hp] using hs.captured hv
  cases t <;> simp [Published, hp, hv] at ht

/-- A confirmed order is paid for and reserved. -/
theorem Inv.confirmed (hs : Inv s) (h : s.order = some .confirmed) :
    s.payment = some .processed ∧ s.verdict = some .reserved := by
  have hstatus := hs.status
  rw [h] at hstatus
  have hv : s.verdict = some .reserved := hs.seen _ hstatus.2
  refine ⟨?_, hv⟩
  rcases hs.captured (by simp [hv]) with hp | hp
  · exact hp
  · have := hs.refunded hp
    simp [hv] at this

/-- A cancelled order has no reservation. -/
theorem Inv.cancelled (hs : Inv s) (h : s.order = some .cancelled) :
    s.verdict ≠ some .reserved := by
  intro hv
  have hstatus := hs.status
  rw [h] at hstatus
  have hp := hs.captured (by simp [hv])
  rcases hstatus with hseen | hseen
  · have := hs.seen _ hseen
    simp_all [Published]
  · have := hs.seen _ hseen
    simp_all [Published]

/-- A fact that Order has not seen and cannot apply is premature : it waits for the
capture while the order is PENDING, for the refusal while it is PAYMENT_OK, and the fact
it waits for is published and not seen. -/
theorem Inv.premature (hs : Inv s) {t : Trigger} {cur : OrderService.Status}
    {e : OrderService.TransitionError} (ho : s.order = some cur) (hpub : s.Published t)
    (hnew : s.seen t = false) (he : (apply cur t).2 = some e) :
    e = .prematureEvent ∧
      ((cur = .pending ∧ s.Published .paymentProcessed ∧ s.seen .paymentProcessed = false) ∨
        (cur = .paymentOk ∧ s.Published .inventoryReservationFail ∧
          s.seen .inventoryReservationFail = false)) := by
  have hstatus := hs.status
  rw [ho] at hstatus
  have hfailed : s.seen .paymentProcessed = true → ¬s.Published .paymentFailed := by
    intro hpp hpf
    have := hs.seen _ hpp
    simp_all [Published]
  have hreserved : s.seen .inventoryReservationFail = true → ¬s.Published .inventoryReserved := by
    intro hif hir
    have := hs.seen _ hif
    simp_all [Published]
  have hcapture : s.Published .inventoryReserved → s.Published .paymentProcessed := by
    intro hir
    exact hs.captured (by simp [show s.verdict = some .reserved from hir])
  have hrefund : s.Published .paymentRefunded →
      s.Published .paymentProcessed ∧ s.Published .inventoryReservationFail :=
    fun hpr => ⟨Or.inr hpr, hs.refunded hpr⟩
  cases cur <;> cases t <;> simp [apply] at he <;> simp_all [StatusInv]

/-- A saga is at rest : its payment is settled, a captured one has its verdict, a
refused one is refunded, and Order has seen every fact. -/
structure AtRest (s : Saga) : Prop where
  paid : s.payment ≠ none
  decided : s.payment = some .processed → s.verdict ≠ none
  refunded : s.verdict = some .refused → s.payment = some .refunded
  seen : ∀ t, s.Published t → s.seen t = true

/-- A saga at rest is over : confirmed with a reservation, or cancelled with the payment
declined or refunded and without one. -/
theorem Inv.rest (hs : Inv s) (h : s.AtRest) :
    (s.order = some .confirmed ∧ s.payment = some .processed ∧ s.verdict = some .reserved) ∨
      (s.order = some .cancelled ∧ (s.payment = some .failed ∨ s.payment = some .refunded) ∧
        s.verdict ≠ some .reserved) := by
  have hstatus := hs.status
  cases hp : s.payment with
  | none => exact absurd hp h.paid
  | some p =>
  cases p with
  | failed =>
    have hseen : s.seen .paymentFailed = true := h.seen .paymentFailed hp
    have hv : s.verdict = none := by
      by_contra hv
      simpa [Published, hp] using hs.captured hv
    have hpp : s.seen .paymentProcessed ≠ true := fun hpp => by
      simpa [Published, hp] using hs.seen _ hpp
    right
    cases ho : s.order with
    | none => exact absurd ho (hs.created (by simp [hp]))
    | some cur => cases cur <;> simp_all [StatusInv]
  | processed =>
    have hseen : s.seen .paymentProcessed = true := h.seen .paymentProcessed (Or.inl hp)
    have hv : s.verdict = some .reserved := by
      cases hv : s.verdict with
      | none => exact absurd hv (h.decided hp)
      | some v =>
        cases v with
        | reserved => rfl
        | refused => simp [h.refunded hv] at hp
    have hir : s.seen .inventoryReserved = true := h.seen .inventoryReserved hv
    have hif : s.seen .inventoryReservationFail ≠ true := fun hif => by
      simpa [Published, hv] using hs.seen _ hif
    have hpf : s.seen .paymentFailed ≠ true := fun hpf => by
      simpa [Published, hp] using hs.seen _ hpf
    left
    cases ho : s.order with
    | none => exact absurd ho (hs.created (by simp [hp]))
    | some cur => cases cur <;> simp_all [StatusInv]
  | refunded =>
    have hv := hs.refunded hp
    have hpr : s.seen .paymentRefunded = true := h.seen .paymentRefunded hp
    have hif : s.seen .inventoryReservationFail = true := h.seen .inventoryReservationFail hv
    have hir : s.seen .inventoryReserved ≠ true := fun hir => by
      simpa [Published, hv] using hs.seen _ hir
    right
    cases ho : s.order with
    | none => exact absurd ho (hs.created (by simp [hp]))
    | some cur => cases cur <;> simp_all [StatusInv]

/-! ## What a step changes -/

/-- A cancelled order has its payment declined or refunded. -/
def Compensated (s : Saga) : Prop :=
  s.order = some .cancelled → s.payment = some .failed ∨ s.payment = some .refunded

/-- Order applies the refusal to a PENDING order whose payment is captured. -/
def CancelsEarly (s : Saga) (t : Trigger) : Prop :=
  t = .inventoryReservationFail ∧ s.order = some .pending ∧ s.payment = some .processed

/-- Delivering a fact leaves a captured payment behind exactly if it cancels the order
early. -/
theorem Inv.compensated_deliver_iff (hs : Inv s) (hc : s.Compensated) {t : Trigger}
    {cur : OrderService.Status} (ho : s.order = some cur) (hpub : s.Published t)
    (hok : (apply cur t).2 = none) :
    Compensated { s with
      order := some (apply cur t).1.next
      seen := Function.update s.seen t true } ↔ ¬s.CancelsEarly t := by
  unfold Compensated at hc ⊢
  cases cur <;> cases t <;> simp [apply] at hok <;> simp_all [apply, CancelsEarly, Published]
  -- the refusal of a PENDING order : its payment is captured, and perhaps refunded
  rcases hs.captured (by simp [hpub]) with hp | hp <;> simp [hp]

/-- A payment that is declined or refunded keeps its status. -/
theorem Step.payment_final (h : Step s s') {p : PaymentService.Status} (hp : s.payment = some p)
    (hfinal : p ≠ .processed) : s'.payment = some p := by
  cases h with
  | create ho => exact hp
  | charge ho hnone hst => simp [hp] at hnone
  | decide v hpub hv => exact hp
  | refund hp' hv =>
    rw [hp, Option.some.injEq] at hp'
    exact absurd hp' hfinal
  | deliver t cur ho hpub hnew hok => exact hp

/-- A terminal order keeps its status. -/
theorem Step.order_final (h : Step s s') {cur : OrderService.Status} (ho : s.order = some cur)
    (hfinal : cur.isTerminal = true) : s'.order = some cur := by
  cases h with
  | create hnone => simp [ho] at hnone
  | charge ho' hp hst => exact ho
  | decide v hp hv => exact ho
  | refund hp hv => exact ho
  | deliver t cur' ho' hpub hnew hok =>
    rw [ho, Option.some.injEq] at ho'
    subst ho'
    cases cur <;> simp [OrderService.Status.isTerminal] at hfinal <;> cases t <;> rfl

end Saga

end Choreography
