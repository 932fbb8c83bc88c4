import RustRest.Response.Finalize

/-!
# The response to `HEAD`

`App::run_request` finalizes a response and, for a `HEAD` request, prepares it for `HEAD` and finalizes it again.

Main result: **`head_as_get`**.
-/

namespace RustRest

namespace Response

variable {Stream : Type}

/-- `record_build_error`: the first error stays. -/
def recordBuildError (r : Response Stream) (error : ResponseBuildError) : Response Stream :=
  if r.buildError.isNone then { r with buildError := some error } else r

/-- The length of the body is declared before it goes. -/
def preserveBufferedRepresentationLength (r : Response Stream) : Response Stream :=
  match r.bodyKind with
  | .bytes bytes =>
    let actual := bytes.data.length
    match parseContentLength r.headers with
    | .ok (headers, some declared) =>
      let r := { r with headers }
      if declared ≠ actual then r.recordBuildError (.contentLengthMismatch declared actual) else r
    | .ok (headers, none) => { r with headers := headers.insert .contentLength (decimalValue actual) }
    | .error error => r.recordBuildError error
  | _ => r

/-- The response without its body. -/
def clearBody (r : Response Stream) : Response Stream := { r with bodyKind := .empty }

/-- The response without its content, as `HEAD` has it. -/
def prepareForHead (r : Response Stream) : Response Stream :=
  let r := { r with trailers := none, headers := r.headers.remove .trailer }
  if ¬ (100 ≤ r.status ∧ r.status ≤ 999) then r.clearBody
  else if statusHasNoContent r.status then r.clearBody
  else r.preserveBufferedRepresentationLength.clearBody

/-- The end of `App::run_request`. -/
def deliver (crates : ResponseCrates) (isHead : Bool) (r : Response Stream) : Response Stream :=
  let r := r.finalize crates
  if isHead then r.prepareForHead.finalize crates else r

section Prepared

variable {crates : ResponseCrates} {r : Response Stream}

theorem preserve_eq (h : r.Finalized crates) {headers : HeaderMap}
    (hlength : headers.getAll .contentLength = r.headers.getAll .contentLength) :
    let kept : Response Stream := { r with trailers := none, headers }
    kept.preserveBufferedRepresentationLength = kept ∨
      ∃ bytes, r.bodyKind = .bytes bytes ∧ r.headers.getAll .contentLength = [] ∧
        kept.preserveBufferedRepresentationLength =
          { kept with headers := headers.insert .contentLength (decimalValue bytes.data.length) } := by
  intro kept
  cases hbody : r.bodyKind with
  | stream s | empty =>
    left
    unfold preserveBufferedRepresentationLength
    rw [show kept.bodyKind = _ from hbody]
  | bytes bytes =>
    unfold preserveBufferedRepresentationLength
    rw [show kept.bodyKind = _ from hbody]
    by_cases hmem : HeaderName.contentLength ∈ r.headers
    · have hget := hlength.trans (h.declared bytes hbody hmem)
      have hbound : bytes.data.length < 2 ^ 64 := by
        have := bytes.bounded
        omega
      left
      dsimp only
      rw [show parseContentLength kept.headers = _ from parseContentLength_decimalValue hbound hget]
      dsimp only
      rw [if_neg (not_not.2 rfl), ← hbody]
    · refine .inr ⟨bytes, rfl, MultiMap.getAll_of_not_mem hmem, ?_⟩
      dsimp only
      rw [show parseContentLength kept.headers = _ from
        parseContentLength_none fun hin => hmem ((MultiMap.mem_congr hlength).1 hin)]

theorem prepareForHead_eq (h : r.Finalized crates) : ∃ headers,
    r.prepareForHead = { r with bodyKind := .empty, trailers := none, headers } ∧
    HeaderName.trailer ∉ headers ∧
    (∀ name, name ≠ .trailer → name ≠ .contentLength → headers.getAll name = r.headers.getAll name) ∧
    (headers.getAll .contentLength = r.headers.getAll .contentLength ∨
      statusHasNoContent r.status = false ∧ ∃ bytes, r.bodyKind = .bytes bytes ∧
        r.headers.getAll .contentLength = [] ∧ headers.getAll .contentLength = [decimalValue bytes.data.length]) := by
  have hother : ∀ name, name ≠ .trailer → (r.headers.remove .trailer).getAll name = r.headers.getAll name :=
    fun name hname => by rw [MultiMap.getAll_remove, if_neg hname]
  have htrailer : HeaderName.trailer ∉ r.headers.remove .trailer := fun hmem => (MultiMap.mem_remove.1 hmem).1 rfl
  have hlength := hother .contentLength (by decide)
  unfold prepareForHead
  dsimp only
  rw [if_neg (not_not.2 (status_of_checkStatus h.status).1)]
  split
  · exact ⟨_, rfl, htrailer, fun name hname _ => hother name hname, .inl hlength⟩
  · next hcontent =>
    obtain hkept | ⟨bytes, hbody, hnone, hkept⟩ := preserve_eq h hlength
    · rw [hkept]
      exact ⟨_, rfl, htrailer, fun name hname _ => hother name hname, .inl hlength⟩
    · rw [hkept]
      refine ⟨_, rfl, ?_, fun name hname hne => ?_, .inr ⟨Bool.eq_false_iff.2 hcontent, bytes, hbody, hnone, ?_⟩⟩
      · rw [MultiMap.mem_insert, not_or]
        exact ⟨by decide, htrailer⟩
      · rw [MultiMap.getAll_insert, if_neg hne, hother name hname]
      · rw [MultiMap.getAll_insert_self]

theorem finalized_prepareForHead (h : r.Finalized crates) : r.prepareForHead.Finalized crates := by
  obtain ⟨headers, heq, htrailer, hother, hlength⟩ := prepareForHead_eq h
  rw [heq]
  exact
    { status := by
        refine checkStatus_ok h.status rfl rfl fun name hname => hother name ?_ ?_
        · rintro rfl
          exact hname (by decide)
        · rintro rfl
          exact hname (by decide)
      noTransferEncoding := by
        rw [MultiMap.mem_congr (hother _ (by decide) (by decide))]
        exact h.noTransferEncoding
      oneLength := by
        intro hmem
        dsimp only at hmem ⊢
        obtain hsame | ⟨-, bytes, -, -, hget⟩ := hlength
        · rw [hsame]
          exact h.oneLength ((MultiMap.mem_congr hsame).1 hmem)
        · refine ⟨_, ?_, hget⟩
          have := bytes.bounded
          omega
      announced := nofun
      notAnnounced := fun _ => htrailer
      noContent := by
        refine fun hno => ⟨rfl, rfl, fun h304 hmem => ?_⟩
        obtain hsame | ⟨hcontent, -⟩ := hlength
        · exact (h.noContent hno).2.2 h304 ((MultiMap.mem_congr hsame).1 hmem)
        · cases hno.symm.trans hcontent
      declared := nofun
      typed := by
        intro hcontent
        rw [MultiMap.mem_congr (hother _ (by decide) (by decide))]
        exact h.typed hcontent
      counted := nofun }

end Prepared

/-- The response to `HEAD` has the status and the header fields of the response to `GET`, but for `Trailer`, which it
does not have, and for the length of a buffered body, which it may have in addition. It has no content and no trailers.
It is replaced by an error response only where the response to `GET` is. -/
theorem head_as_get (crates : ResponseCrates) (r : Response Stream) :
    let get := r.deliver crates false
    let head := r.deliver crates true
    head.status = get.status ∧
    (∀ name, name ≠ .trailer → name ≠ .contentLength → head.headers.getAll name = get.headers.getAll name) ∧
    HeaderName.trailer ∉ head.headers ∧
    (head.headers.getAll .contentLength = get.headers.getAll .contentLength ∨
      ∃ bytes, get.bodyKind = .bytes bytes ∧ get.headers.getAll .contentLength = [] ∧
        head.headers.getAll .contentLength = [decimalValue bytes.data.length]) ∧
    head.bodyKind = .empty ∧ head.trailers = none ∧
    get.prepareForHead.checked crates = .ok head := by
  intro get head
  have hget : get.Finalized crates := finalized_finalize r
  have hprepared : get.prepareForHead.Finalized crates := finalized_prepareForHead hget
  have hhead : head = get.prepareForHead := finalize_of_finalized hprepared
  obtain ⟨headers, heq, htrailer, hother, hlength⟩ := prepareForHead_eq hget
  rw [checked_of_finalized hprepared, hhead, heq]
  exact ⟨rfl, hother, htrailer, hlength.imp_right And.right, rfl, rfl, rfl⟩

end Response

end RustRest
