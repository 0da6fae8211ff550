import KeyAgreement.Keys.Generation
import KeyAgreement.Parameters.Small
import KeyAgreement.Proofs.Uniformity

/-! What draws consume of a source: reply after reply of the size that is asked for, up to the
first that decides, and nothing after it. Keys that are drawn one after the other share the replies
out among them in order. -/
namespace KeyAgreement

/-- What a source answers: octets, of whatever length, or the fault that it fails with. -/
abbrev Reply := Except Fault Octets

namespace Source
variable {count : Int} {s t : Source} {script part : List Reply}

/-- Asked for `count` octets time after time, the source gives these replies in order and is then
the other one. What a keyed source gives, and where it goes on, depends on how many it is asked
for. -/
inductive Gives (count : Int) : Source → List Reply → Source → Prop where
  | nothing {s : Source} : Gives count s [] s
  | reply {s t u : Source} {a : Reply} {part : List Reply} :
    s.read count = (a, t) → Gives count t part u → Gives count s (a :: part) u

/-- The first replies of a script. When it has run dry it goes on to fail. -/
def firstReplies : Nat → List Reply → List Reply
  | 0, _ => []
  | n + 1, script => script.headD (.error .entropyExhausted) :: firstReplies n script.tail

@[simp] theorem length_firstReplies (n : Nat) (script : List Reply) :
    (firstReplies n script).length = n := by
  induction n generalizing script with
  | zero => rfl
  | succ n ih => simp [firstReplies, ih]

theorem firstReplies_add (m n : Nat) (script : List Reply) :
    firstReplies (m + n) script = firstReplies m script ++ firstReplies n (script.drop m) := by
  induction m generalizing script with
  | zero => simp [firstReplies]
  | succ m ih => simp [Nat.succ_add, firstReplies, ih]

theorem read_scripted (count : Int) (script : List Reply) : (scripted script).read count =
    (script.headD (.error .entropyExhausted), .scripted script.tail) := by
  cases script <;> rfl

theorem gives_scripted (count : Int) (n : Nat) (script : List Reply) :
    (scripted script).Gives count (firstReplies n script) (.scripted (script.drop n)) := by
  induction n generalizing script with
  | zero => exact .nothing
  | succ n ih =>
    rw [← List.drop_tail]
    exact .reply (read_scripted count script) (ih script.tail)

end Source

namespace Draw
open Source Success
variable {α β : Type} {start stop : Int} {s t : Source} {part : List Reply}

/-- What comes of a single reply: the fault of the source, that of a wrong length, or a number of
the range. None of these if the reply is as long as asked for but stands for a number that is too
large. -/
def decision (start stop : Int) : Reply → Option (Except Fault Int)
  | .error f => some (.error f)
  | .ok b =>
    if b.length ≠ octetWidth (stop - start) then
      some (.error (.shortEntropy b.length (octetWidth (stop - start))))
    else if (b.value % 2 ^ bitWidth (stop - start) : Nat) < stop - start then
      some (.ok (start + (b.value % 2 ^ bitWidth (stop - start) : Nat)))
    else none

/-- The replies that a draw reads, and how it ends: the first one that leads to a decision is the
last. Of an empty range nothing is read. -/
inductive Decided (start stop : Int) : List Reply → Except Fault Int → Prop where
  | empty : stop ≤ start → Decided start stop [] (.error (.emptyRange start stop))
  | first {rejected : List Reply} {a : Reply} {r : Except Fault Int} :
    start < stop → (∀ b ∈ rejected, decision start stop b = none) → decision start stop a = some r →
    Decided start stop (rejected ++ [a]) r

/-- The replies alone say how a draw ends. -/
theorem Decided.unique {r r' : Except Fault Int} (h : Decided start stop part r)
    (h' : Decided start stop part r') : r = r' := by
  cases h with
  | empty hempty =>
    generalize hpart : ([] : List Reply) = part at h'
    cases h' with
    | empty => rfl
    | first hrange => omega
  | @first rejected a _ hrange _ hdecides =>
    generalize hpart : rejected ++ [a] = part at h'
    cases h' with
    | empty hempty => omega
    | first _ _ hdecides' =>
      rw [List.singleton_inj.mp (List.append_inj' hpart rfl).2, hdecides'] at hdecides
      exact (Option.some.inj hdecides).symm

/-- A number that comes of a reply is one of the range. -/
theorem decision_range {a : Reply} {k : Int} (h : decision start stop a = some (.ok k)) :
    start ≤ k ∧ k < stop := by
  cases a with
  | error f => cases h
  | ok b =>
    rw [decision] at h
    split at h
    · cases h
    · split at h
      · cases h
        omega
      · cases h

theorem Decided.within {r : Except Fault Int} (h : Decided start stop part r) (k : Int)
    (hk : r = .ok k) : start ≤ k ∧ k < stop := by
  cases h with
  | empty hempty => cases hk
  | first _ _ hdecides =>
    rw [hk] at hdecides
    exact decision_range hdecides

theorem run_read (count : Int) (s : Source) : (read count).run.run s = s.read count := rfl

theorem run_octets (count : Int) (s : Source) : (octets count).run.run s =
    match s.read count with
    | (.ok b, t) =>
        (if (b.length : Int) = count then .ok b else .error (.shortEntropy b.length count), t)
    | (.error f, t) => (.error f, t) := by
  rw [octets, run_bind, run_read]
  rcases s.read count with ⟨f | b, t⟩
  · rfl
  · by_cases hlength : (b.length : Int) = count
    · simp only [hlength, ne_eq, not_true, if_true, if_false]
      rfl
    · simp only [hlength, ne_eq, not_false_iff, if_true, if_false]
      rfl

/-- One try of any source. -/
theorem belowFrom_succ (hrange : start < stop) (tries : Nat) (s : Source) :
    (belowFrom start (stop - start).toNat (tries + 1)).run.run s =
      match decision start stop (s.read (octetWidth (stop - start))).1 with
      | some r => (r, (s.read (octetWidth (stop - start))).2)
      | none =>
          (belowFrom start (stop - start).toNat tries).run.run
            (s.read (octetWidth (stop - start))).2 := by
  have hbound : ((stop - start).toNat : Int) = stop - start := Int.toNat_of_nonneg (by omega)
  rw [belowFrom, run_bind, run_octets, hbound]
  rcases s.read (octetWidth (stop - start)) with ⟨f | b, t⟩
  · rfl
  · by_cases hlength : b.length = octetWidth (stop - start)
    · have hless : ((b.value % 2 ^ bitWidth (stop - start) : Nat) : Int) < stop - start ↔
          b.value % 2 ^ bitWidth (stop - start) < (stop - start).toNat := by
        omega
      simp only [decision, hlength, ne_eq, not_true, if_true, if_false, hless, run_bind, run_lift,
        attempt_range_eq hrange hlength]
      by_cases hlt : b.value % 2 ^ bitWidth (stop - start) < (stop - start).toNat
      · simp only [hlt, if_true]
        rfl
      · simp only [hlt, if_false]
    · simp [decision, hlength]

/-- Replies that are passed over, and then the one that decides. -/
theorem belowFrom_of_gives (hrange : start < stop) {rejected : List Reply} {a : Reply}
    {r : Except Fault Int} {tries : Nat} (hrejected : ∀ b ∈ rejected, decision start stop b = none)
    (hdecides : decision start stop a = some r)
    (hgives : s.Gives (octetWidth (stop - start)) (rejected ++ [a]) t)
    (htries : rejected.length < tries) :
    (belowFrom start (stop - start).toNat tries).run.run s = (r, t) := by
  induction rejected generalizing s tries with
  | nil =>
    obtain _ | ⟨hread, hgives⟩ := hgives
    cases hgives
    obtain ⟨tries, rfl⟩ := Nat.exists_eq_add_of_lt htries
    rw [belowFrom_succ hrange, hread, hdecides]
  | cons b rejected ih =>
    obtain _ | ⟨hread, hgives⟩ := hgives
    obtain ⟨tries, rfl⟩ := Nat.exists_eq_add_of_lt htries
    rw [belowFrom_succ hrange, hread, hrejected b List.mem_cons_self]
    apply ih _ hgives (by rw [List.length_cons]; omega)
    intro b hb
    exact hrejected b (List.mem_cons_of_mem _ hb)

/-- Of any source that gives these replies, asked each time for `count` octets, all of them are
read and no other. A source whose patience ends before the replies do is given up. -/
def Consumes (m : Draw α) (count : Int) (part : List Reply) (r : Except Fault α) : Prop :=
  ∀ s t : Source, s.Gives count part t → part.length ≤ s.patience → m.run.run s = (r, t)

/-- A draw reads the replies that decide it, each of them with the size that the range needs. -/
theorem Decided.consumes {r : Except Fault Int} (h : Decided start stop part r) :
    (range start stop).Consumes (octetWidth (stop - start)) part r := by
  intro s t hgives hpatience
  cases h with
  | empty hempty =>
    cases hgives
    unfold range
    rw [if_pos (by omega)]
    rfl
  | first hrange hrejected hdecides =>
    rw [range_run hrange]
    apply belowFrom_of_gives hrange hrejected hdecides hgives
    rw [List.length_append, List.length_singleton] at hpatience
    omega

/-- A script need not be longer than what is read of it: one that has run dry replies with a
fault. -/
theorem Consumes.run_scripted {m : Draw α} {count : Int} {n : Nat} {script : List Reply}
    {r : Except Fault α} (h : m.Consumes count (firstReplies n script) r)
    (hn : n ≤ script.length + 1) :
    m.run.run (.scripted script) = (r, .scripted (script.drop n)) := by
  apply h _ _ (gives_scripted count n script)
  rw [length_firstReplies]
  exact hn

/-- What draws nothing consumes nothing. -/
theorem Consumes.bind_lift {m : Draw α} {count : Int} {r : Except Fault α}
    (h : m.Consumes count part r) (f : α → Except Fault β) :
    (m >>= fun a => liftM (f a)).Consumes count part (r >>= f) := by
  intro s t hgives hpatience
  rw [run_bind, h s t hgives hpatience]
  cases r with
  | error e => rfl
  | ok a => exact run_lift (f a) t

/-- Every script decides the draw: one that has run dry makes it fail. -/
theorem exists_decided (start stop : Int) (script : List Reply) :
    ∃ n r, n ≤ script.length + 1 ∧ Decided start stop (firstReplies n script) r := by
  by_cases hrange : start < stop
  · suffices h : ∃ n r, n ≤ script.length ∧ ∃ rejected a,
        firstReplies (n + 1) script = rejected ++ [a] ∧
        (∀ b ∈ rejected, decision start stop b = none) ∧ decision start stop a = some r by
      obtain ⟨n, r, hn, rejected, a, hfirst, hrejected, hdecides⟩ := h
      refine ⟨n + 1, r, by omega, ?_⟩
      rw [hfirst]
      exact .first hrange hrejected hdecides
    induction script with
    | nil => exact ⟨0, _, Nat.le_refl 0, [], _, rfl, by simp, rfl⟩
    | cons a script ih =>
      rcases hdecision : decision start stop a with _ | r
      · obtain ⟨n, r, hn, rejected, b, hfirst, hrejected, hdecides⟩ := ih
        refine ⟨n + 1, r, Nat.succ_le_succ hn, a :: rejected, b, ?_, ?_, hdecides⟩
        · exact congrArg (a :: ·) hfirst
        · exact List.forall_mem_cons.mpr ⟨hdecision, hrejected⟩
      · exact ⟨0, r, Nat.zero_le _, [], a, rfl, by simp, hdecision⟩
  · exact ⟨0, _, Nat.zero_le _, .empty (by omega)⟩

end Draw

namespace KeyRequest
open Source Draw

/-- The key with a given exponent. -/
def keyOf (r : KeyRequest) (x : Int) : Except Fault FreshKey :=
  match r.kind with
  | .staticPrivate => do
    let privateKey ← Octets.fixed x r.params.group.subgroupOrder
    pure (.staticPrivate privateKey)
  | .static => do
    let privateKey ← Octets.fixed x r.params.group.subgroupOrder
    let publicKey ← r.params.staticPublic (.octets privateKey)
    pure (.static ⟨privateKey, publicKey⟩)
  | .ephemeral => do
    let publicKey ← r.params.group.encode (r.params.group.basePower x)
    pure (.ephemeral ⟨r.params, x, .octets publicKey⟩)

/-- Whatever is asked for, an exponent is drawn, and nothing after that. -/
theorem draw_eq (r : KeyRequest) :
    r.draw = r.params.drawExponent >>= fun x => liftM (r.keyOf x) := by
  obtain ⟨P, kind⟩ := r
  cases kind with
  | staticPrivate => simp [draw, keyOf, Parameters.drawStaticPrivate]
  | static => simp [draw, keyOf, Parameters.drawStaticKey, Parameters.drawStaticPrivate]
  | ephemeral => simp [draw, keyOf, Parameters.drawEphemeralKey]

end KeyRequest

/-- One of several requests to the same source: the replies that it has to itself, and how the draw
of its exponent ends. -/
structure Call where
  request : KeyRequest
  replies : List Reply
  exponent : Except Fault Int

namespace Call

/-- The key that its requester gets. -/
def outcome (c : Call) : Except Fault FreshKey := c.exponent >>= c.request.keyOf

/-- The replies decide the exponent, and they alone are consumed for the key. -/
structure Served (c : Call) : Prop where
  decided : Draw.Decided 1 c.request.params.group.subgroupOrder c.replies c.exponent
  consumes : c.request.draw.Consumes (octetWidth (c.request.params.group.subgroupOrder - 1))
    c.replies c.outcome

end Call

namespace KeyRequest
open Source Draw

/-- The first replies of a script serve a request, and the script goes on with the others. -/
theorem exists_served (r : KeyRequest) (script : List Reply) :
    ∃ c : Call, c.request = r ∧ c.Served ∧ ∃ n, c.replies = firstReplies n script ∧
      r.draw.run.run (.scripted script) = (c.outcome, .scripted (script.drop n)) := by
  obtain ⟨n, x, hn, hdecided⟩ := exists_decided 1 r.params.group.subgroupOrder script
  have hexponent : r.params.drawExponent = range 1 r.params.group.subgroupOrder := by
    rw [Parameters.drawExponent, exponent, Group.largestExponent, Int.sub_add_cancel]
  have hconsumes := hdecided.consumes.bind_lift r.keyOf
  rw [← hexponent, ← draw_eq] at hconsumes
  exact ⟨⟨r, firstReplies n script, x⟩, rfl, ⟨hdecided, hconsumes⟩, n, rfl,
    hconsumes.run_scripted hn⟩

/-- The requests share the first replies of the script out among them in order. -/
theorem exists_calls (requests : List KeyRequest) (script : List Reply) : ∃ calls : List Call,
    calls.map Call.request = requests ∧ (∀ c ∈ calls, c.Served) ∧ ∃ n,
      calls.flatMap Call.replies = firstReplies n script ∧
        drawAll requests (.scripted script) =
          (calls.map Call.outcome, .scripted (script.drop n)) := by
  induction requests generalizing script with
  | nil => exact ⟨[], rfl, by simp, 0, rfl, rfl⟩
  | cons r requests ih =>
    obtain ⟨c, hrequest, hserved, m, hreplies, hrun⟩ := r.exists_served script
    obtain ⟨calls, hrequests, hall, n, hrest, hruns⟩ := ih (script.drop m)
    refine ⟨c :: calls, ?_, List.forall_mem_cons.mpr ⟨hserved, hall⟩, m + n, ?_, ?_⟩
    · rw [List.map_cons, hrequest, hrequests]
    · rw [List.flatMap_cons, hreplies, hrest, firstReplies_add]
    · simp only [drawAll, hrun, hruns, List.drop_drop, List.map_cons]

end KeyRequest

namespace Draw
open Source KeyRequest

/-- What decides a draw is the first reply that leads to a decision, whatever the source: all
before it are passed over, and it is the last one read. It alone says how the draw ends, and a
number so drawn is in the range. Of any script the first replies decide the draw. A sequence of
requests shares the first replies of a script out among them in order, and the key of each is what
its own share makes of it. -/
theorem replies_consumed_in_order :
    (∀ start stop : Int,
      (∀ script, ∃ n r, Decided start stop (firstReplies n script) r ∧
        (range start stop).run.run (.scripted script) = (r, .scripted (script.drop n))) ∧
      ∀ part r, Decided start stop part r →
        (range start stop).Consumes (octetWidth (stop - start)) part r ∧
        (∀ r', Decided start stop part r' → r' = r) ∧
        ∀ k, r = .ok k → start ≤ k ∧ k < stop) ∧
    (∀ (requests : List KeyRequest) (script : List Reply), ∃ calls : List Call,
      calls.map Call.request = requests ∧ (∀ c ∈ calls, c.Served) ∧ ∃ n,
        calls.flatMap Call.replies = firstReplies n script ∧
          drawAll requests (.scripted script) =
            (calls.map Call.outcome, .scripted (script.drop n))) := by
  refine ⟨?_, exists_calls⟩
  intro start stop
  constructor
  · intro script
    obtain ⟨n, r, hn, h⟩ := exists_decided start stop script
    exact ⟨n, r, h, h.consumes.run_scripted hn⟩
  · intro part r h
    exact ⟨h.consumes, fun r' h' => h'.unique h, h.within⟩

/-- With two octets for the numbers from -3 up to 297 the first reply stands for 511 and is passed
over. Four requests take two replies, one of a wrong length, one that is a fault, and one, and
leave the last. -/
theorem four_requests_replies_consumed_in_order :
    Decided (-3) 297 [.ok [255, 255], .ok [0, 5]] (.ok 2) ∧
    (range (-3) 297).run.run (.scripted [.ok [255, 255], .ok [0, 5], .ok [1]]) =
      (.ok 2, .scripted [.ok [1]]) ∧
    ∃ calls : List Call, calls.map Call.request =
        [⟨.residues23, .staticPrivate⟩, ⟨.curve17, .static⟩, ⟨.residues23, .ephemeral⟩,
          ⟨.curve17, .staticPrivate⟩] ∧
      (∀ c ∈ calls, c.Served) ∧
      calls.flatMap Call.replies =
        [.ok [255], .ok [2], .ok [1, 2], .error .entropyExhausted, .ok [4]] ∧
      calls.map Call.outcome =
        [.ok (.staticPrivate [3]), .error (.shortEntropy 2 1), .error .entropyExhausted,
          .ok (.staticPrivate [5])] := by
  obtain ⟨hdraw, hcalls⟩ := replies_consumed_in_order
  have hdecided : Decided (-3) 297 [.ok [255, 255], .ok [0, 5]] (.ok 2) := by
    apply @Decided.first (-3) 297 [.ok [255, 255]] (.ok [0, 5]) (.ok 2) (by decide)
    · simp only [List.mem_singleton, forall_eq]
      decide +kernel
    · decide +kernel
  obtain ⟨hconsumes, -⟩ := (hdraw (-3) 297).2 _ _ hdecided
  have hrun : (range (-3) 297).run.run (.scripted [.ok [255, 255], .ok [0, 5], .ok [1]]) =
      (.ok 2, .scripted [.ok [1]]) :=
    hconsumes.run_scripted (n := 2) (by decide)
  obtain ⟨calls, hrequests, hserved, n, hreplies, hruns⟩ := hcalls
    [⟨.residues23, .staticPrivate⟩, ⟨.curve17, .static⟩, ⟨.residues23, .ephemeral⟩,
      ⟨.curve17, .staticPrivate⟩]
    [.ok [255], .ok [2], .ok [1, 2], .error .entropyExhausted, .ok [4], .ok [9]]
  obtain ⟨houtcomes, hleft⟩ := Prod.ext_iff.mp hruns
  have hn : n = 5 := by
    have hlength := congrArg List.length (Source.scripted.inj hleft)
    rw [List.length_drop] at hlength
    change 1 = 6 - n at hlength
    omega
  rw [hn] at hreplies
  exact ⟨hdecided, hrun, calls, hrequests, hserved, hreplies, houtcomes.symm⟩

end Draw
end KeyAgreement
