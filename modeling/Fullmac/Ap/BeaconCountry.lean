import Fullmac.Lib.Runs
import Fullmac.Lib.Writer
import Fullmac.Reg.Channels

/-!
# The Country element of a beacon

Reference: `host/ap/beacon.c`, `hostapd_eid_country_add` and `hostapd_eid_country`.

The element lists the channels that may be used, run by run: a triplet has the first channel of a
run, the number of its channels and a power. The loop over a band writes a triplet when it finds the
first channel of the next run, and the last triplet is written behind the loop. It is written even
if the loop has found no channel, and then says channel 0; and as the write behind the 5 GHz loop
stands outside the test whether there is 5 GHz at all, without 5 GHz the last triplet of the 2.4 GHz
band is written twice. A triplet is not written if there is no room for it; the octet that makes the
length even is not tested for room.
-/

namespace Fullmac.Ap.Beacon

open Bytes Writer Runs
open Reg (Regdomain RegCfg RegState RegRule Is5gBand getRegdomain freqNeedDfs bw entry chantable2ghz
  chantable5ghz max2gChannelNum max5gChannelNum)

/-! ## The writer -/

/-- `WLAN_EID_COUNTRY`. -/
def eidCountry : UInt8 := 7

/-- `hostapd_eid_country_add`, with the end of the buffer at `limit`. -/
def hostapdEidCountryAdd (pos : Cursor) (limit chanSpacing : ℕ) (s e : UInt8) : Cursor :=
  if limit < pos.pos + 3 then pos
  else ((pos.put s).put (UInt8.ofNat ((e.toNat - s.toNat) / chanSpacing + 1))).put 20

/-- The pointer, and the first and the last channel of the run that has begun; `s` is 0 if none
has. -/
structure RunState where
  pos : Cursor
  s : ℕ
  e : ℕ

/-- What is done with a channel. -/
def countryStep (limit channelSpace : ℕ) (st : RunState) (hw : ℕ) : RunState :=
  if st.s ≠ 0 then
    if st.e + channelSpace = hw then { st with e := hw }
    else
      ⟨hostapdEidCountryAdd st.pos limit channelSpace (UInt8.ofNat st.s) (UInt8.ofNat st.e), hw, hw⟩
  else { st with s := hw, e := hw }

/-- The loop over the 2.4 GHz band. -/
def country2g (limit : ℕ) (reg : RegState) (pos : Cursor) : RunState :=
  (List.range max2gChannelNum).foldl (fun st i =>
    if reg.available2g.getLsbD i then countryStep limit 1 st (entry chantable2ghz i).hwValue
    else st) ⟨pos, 0, 0⟩

/-- A channel of the 5 GHz band is available, and not left out for its radar detection. -/
def kept5g (cfg : RegCfg) (rules : List RegRule) (reg : RegState) (i : ℕ) : Bool :=
  reg.available5g.getLsbD i &&
    !(cfg.apNoDfs && freqNeedDfs (entry chantable5ghz i).centerFreq bw rules)

/-- The loop over the 5 GHz band. -/
def country5g (limit : ℕ) (cfg : RegCfg) (rules : List RegRule) (reg : RegState) (pos : Cursor) :
    RunState :=
  (List.range max5gChannelNum).foldl (fun st i =>
    if kept5g cfg rules reg i then countryStep limit 4 st (entry chantable5ghz i).hwValue
    else st) ⟨pos, 0, 0⟩

/-- The triplet behind a loop. -/
def RunState.flush (st : RunState) (limit channelSpace : ℕ) : Cursor :=
  hostapdEidCountryAdd st.pos limit channelSpace (UInt8.ofNat st.s) (UInt8.ofNat st.e)

/-- `hostapd_eid_country`. The third octet of `alpha2` is the zero that
`ssv6xxx_wifi_init_regdom` leaves there. -/
def hostapdEidCountry (regdom : List Regdomain) (cfg : RegCfg) (reg : RegState) (maxLen : ℕ)
    (eid : Cursor) : Cursor :=
  let limit := eid.pos + maxLen
  if maxLen < 6 then eid
  else
    let pos := (eid.put eidCountry).advance 1
    match getRegdomain regdom reg.alpha2 with
    | none => { pos with pos := eid.pos }
    | some dom =>
      let pos := ((pos.put dom.alpha2.1).put dom.alpha2.2).put 0
      let st := country2g limit reg pos
      let pos := st.flush limit 1
      let pos :=
        if cfg.support5g then (country5g limit cfg dom.regRules reg pos).flush limit 4
        else { st with pos := pos }.flush limit 1
      let pos := if (pos.pos - eid.pos) % 2 = 1 then pos.put 0 else pos
      pos.poke (eid.pos + 1) (UInt8.ofNat (pos.pos - eid.pos - 2))

/-! ## What the element should list -/

/-- The channels of the 2.4 GHz band that are available. -/
def usable2g (reg : RegState) : List ℕ :=
  ((List.range max2gChannelNum).filter reg.available2g.getLsbD).map
    fun i => (entry chantable2ghz i).hwValue

/-- The channels of the 5 GHz band that are available and not left out, if there is 5 GHz. -/
def usable5g (cfg : RegCfg) (rules : List RegRule) (reg : RegState) : List ℕ :=
  if cfg.support5g then
    ((List.range max5gChannelNum).filter (kept5g cfg rules reg)).map
      fun i => (entry chantable5ghz i).hwValue
  else []

/-- How far apart the channels of a triplet are, in the band of the first. -/
def stepOf (ch : ℕ) : ℕ := if Is5gBand ch then 4 else 1

/-- The channels of a triplet. -/
def decodeTriplet (first count : ℕ) : List ℕ :=
  (List.range count).map fun k => first + stepOf first * k

/-- The channels of the triplets of an element. -/
def decodeTriplets : List UInt8 → List ℕ
  | first :: count :: _ :: rest =>
    decodeTriplet first.toNat count.toNat ++ decodeTriplets rest
  | _ => []

/-- The size of an element with `n` triplets. -/
def countrySize (n : ℕ) : ℕ := 5 + 3 * n + (5 + 3 * n) % 2

/-- How many runs of channels there are. -/
def numRuns (u2 u5 : List ℕ) : ℕ := (starts 1 u2).length + (starts 4 u5).length

/-- Between two pointers, and within `maxLen` octets, lies a Country element. If there is room for a
triplet for each run, it lists the channels of both bands, each once. -/
structure CountryRight (u2 u5 : List ℕ) (maxLen : ℕ) (eid pos : Cursor) : Prop where
  id : pos.mem eid.pos = eidCountry
  element : IsElement eid pos
  inside : pos.pos ≤ eid.pos + maxLen
  lists : countrySize (numRuns u2 u5) ≤ maxLen →
    (decodeTriplets ((body eid pos).drop 3)).Perm (u2 ++ u5)

/-! ## The triplets that are written -/

variable {limit d s e : ℕ} {cs : List ℕ} {pos : Cursor}

/-- First channel and number of channels of a run. -/
def toTriplet (d : ℕ) (r : ℕ × ℕ) : ℕ × ℕ := (r.1, size d r)

/-- The octets of a triplet. -/
def tripletOctets (t : ℕ × ℕ) : List UInt8 := [UInt8.ofNat t.1, UInt8.ofNat t.2, 20]

/-- A triplet is added if there is room for it. -/
def addTriplet (limit : ℕ) (pos : Cursor) (t : ℕ × ℕ) : Cursor :=
  if limit < pos.pos + 3 then pos else pos.write (tripletOctets t)

/-- The runs that a band is written with: channel 0 if it has none. -/
def listed (d : ℕ) : List ℕ → List (ℕ × ℕ)
  | [] => [(0, 0)]
  | c :: cs => runsFrom d c c cs

/-- Channel numbers fit into an octet. -/
def Small (r : ℕ × ℕ) : Prop := r.1 ≤ r.2 ∧ r.2 < 255

theorem hostapdEidCountryAdd_eq {r : ℕ × ℕ} (hr : Small r) (limit d : ℕ) (pos : Cursor) :
    hostapdEidCountryAdd pos limit d (UInt8.ofNat r.1) (UInt8.ofNat r.2) =
      addTriplet limit pos (toTriplet d r) := by
  obtain ⟨hle, hlt⟩ := hr
  have h1 : (UInt8.ofNat r.1).toNat = r.1 := by
    rw [UInt8.toNat_ofNat', Nat.mod_eq_of_lt (by omega)]
  have h2 : (UInt8.ofNat r.2).toNat = r.2 := by
    rw [UInt8.toNat_ofNat', Nat.mod_eq_of_lt (by omega)]
  rw [hostapdEidCountryAdd, addTriplet, h1, h2]
  split
  · rfl
  · simp [tripletOctets, toTriplet, size]

theorem addTriplet_foldl (limit : ℕ) (ts : List (ℕ × ℕ)) (pos : Cursor) :
    ts.foldl (addTriplet limit) pos =
      pos.write ((ts.take ((limit - pos.pos) / 3)).flatMap tripletOctets) := by
  induction ts generalizing pos with
  | nil => simp
  | cons t ts ih =>
    rw [List.foldl_cons, ih, addTriplet]
    split
    next hfull => rw [show (limit - pos.pos) / 3 = 0 by omega]; simp
    next hroom =>
      have hlen : (tripletOctets t).length = 3 := rfl
      rw [Cursor.write_write, Cursor.write_pos, hlen,
        show (limit - pos.pos) / 3 = (limit - (pos.pos + 3)) / 3 + 1 by omega, List.take_succ_cons,
        List.flatMap_cons]

/-- The loop, once a run has begun, has added the triplets of all runs but the last. -/
theorem countryStep_foldl_from (limit d : ℕ) (hs : s ≠ 0) (hcs : ∀ c ∈ cs, c ≠ 0)
    (pos : Cursor) : ∃ front last, runsFrom d s e cs = front ++ [last] ∧
      cs.foldl (countryStep limit d) ⟨pos, s, e⟩ = ⟨front.foldl (fun pos r =>
        hostapdEidCountryAdd pos limit d (UInt8.ofNat r.1) (UInt8.ofNat r.2)) pos,
          last.1, last.2⟩ := by
  induction cs generalizing s e pos with
  | nil => exact ⟨[], (s, e), rfl, rfl⟩
  | cons c cs ih =>
    have hc : c ≠ 0 := hcs c List.mem_cons_self
    have hrest : ∀ c ∈ cs, c ≠ 0 := fun c hc => hcs c (List.mem_cons_of_mem _ hc)
    rw [runsFrom, List.foldl_cons, countryStep, if_pos hs]
    split
    next => exact ih hs hrest pos
    next =>
      obtain ⟨front, last, hruns, hfold⟩ := ih (e := c) hc hrest
        (hostapdEidCountryAdd pos limit d (UInt8.ofNat s) (UInt8.ofNat e))
      exact ⟨(s, e) :: front, last, by rw [hruns, List.cons_append], hfold⟩

theorem countryStep_foldl (limit d : ℕ) (hcs : ∀ c ∈ cs, c ≠ 0) (pos : Cursor) :
    ∃ front last, listed d cs = front ++ [last] ∧
      cs.foldl (countryStep limit d) ⟨pos, 0, 0⟩ = ⟨front.foldl (fun pos r =>
        hostapdEidCountryAdd pos limit d (UInt8.ofNat r.1) (UInt8.ofNat r.2)) pos,
          last.1, last.2⟩ := by
  cases cs with
  | nil => exact ⟨[], (0, 0), rfl, rfl⟩
  | cons c cs =>
    exact countryStep_foldl_from limit d (hcs c List.mem_cons_self)
      (fun c hc => hcs c (List.mem_cons_of_mem _ hc)) pos

/-- The runs go no further than the channels. -/
theorem le_of_mem_listed {k : ℕ} (hcs : ∀ c ∈ cs, c ≤ k) {r : ℕ × ℕ} (hr : r ∈ listed d cs) :
    r.1 ≤ r.2 ∧ r.2 ≤ k := by
  cases cs with
  | nil =>
    rw [listed, List.mem_singleton] at hr
    subst hr
    exact ⟨Nat.le_refl 0, Nat.zero_le k⟩
  | cons c cs =>
    have hruns : r ∈ runs d (c :: cs) := hr
    exact ⟨le_of_mem_runs hruns, hcs _ (mem_runs hruns).2⟩

theorem small_of_mem_listed (hcs : ∀ c ∈ cs, c < 255) {r : ℕ × ℕ} (hr : r ∈ listed d cs) :
    Small r := by
  have hle := le_of_mem_listed (fun c hc => Nat.le_of_lt_succ (hcs c hc)) hr
  exact ⟨hle.1, Nat.lt_succ_of_le hle.2⟩

theorem foldl_add_eq {rs : List (ℕ × ℕ)} (hrs : ∀ r ∈ rs, Small r) (limit d : ℕ)
    (pos : Cursor) : rs.foldl (fun pos r =>
      hostapdEidCountryAdd pos limit d (UInt8.ofNat r.1) (UInt8.ofNat r.2)) pos =
        (rs.map (toTriplet d)).foldl (addTriplet limit) pos := by
  induction rs generalizing pos with
  | nil => rfl
  | cons r rs ih =>
    rw [List.foldl_cons, List.map_cons, List.foldl_cons,
      hostapdEidCountryAdd_eq (hrs r List.mem_cons_self),
      ih fun r hr => hrs r (List.mem_cons_of_mem _ hr)]

/-- A loop and the write behind it add the triplets of all runs, and leave the last run in the
state. -/
theorem countryStep_flush (limit d : ℕ) (hcs : ∀ c ∈ cs, c ≠ 0 ∧ c < 255) (pos : Cursor) :
    ∃ front last, listed d cs = front ++ [last] ∧
      (cs.foldl (countryStep limit d) ⟨pos, 0, 0⟩).s = last.1 ∧
      (cs.foldl (countryStep limit d) ⟨pos, 0, 0⟩).e = last.2 ∧
      (cs.foldl (countryStep limit d) ⟨pos, 0, 0⟩).flush limit d =
        ((listed d cs).map (toTriplet d)).foldl (addTriplet limit) pos := by
  obtain ⟨front, last, hlisted, hfold⟩ :=
    countryStep_foldl limit d (fun c hc => (hcs c hc).1) pos
  have hsmall : ∀ r ∈ listed d cs, Small r :=
    fun r hr => small_of_mem_listed (fun c hc => (hcs c hc).2) hr
  refine ⟨front, last, hlisted, by rw [hfold], by rw [hfold], ?_⟩
  rw [← foldl_add_eq hsmall, hfold, hlisted, List.foldl_append]
  rfl

/-! ## The channels of the two bands -/

variable {cfg : RegCfg} {rules : List RegRule} {reg : RegState}

theorem foldl_filter_map {α β γ : Type} (p : α → Bool) (f : α → β) (g : γ → β → γ) (l : List α)
    (c : γ) : l.foldl (fun c a => if p a then g c (f a) else c) c =
      ((l.filter p).map f).foldl g c := by
  rw [List.foldl_map, List.foldl_filter]

theorem country2g_eq (limit : ℕ) (reg : RegState) (pos : Cursor) :
    country2g limit reg pos = (usable2g reg).foldl (countryStep limit 1) ⟨pos, 0, 0⟩ :=
  foldl_filter_map _ (fun i => (entry chantable2ghz i).hwValue) _ _ _

theorem country5g_eq (h5 : cfg.support5g = true) (limit : ℕ) (rules : List RegRule)
    (reg : RegState) (pos : Cursor) : country5g limit cfg rules reg pos =
      (usable5g cfg rules reg).foldl (countryStep limit 4) ⟨pos, 0, 0⟩ := by
  rw [usable5g, if_pos h5]
  exact foldl_filter_map _ (fun i => (entry chantable5ghz i).hwValue) _ _ _

/-- A mask of the 2.4 GHz band has bits for the channels 1 to 14 only. -/
def Mask2g (reg : RegState) : Prop := ∀ i, reg.available2g.getLsbD i = true → 1 ≤ i ∧ i ≤ 14

theorem usable2g_eq (h : Mask2g reg) :
    usable2g reg = (List.range max2gChannelNum).filter reg.available2g.getLsbD := by
  have hentry : ∀ i < 15, (entry chantable2ghz i).hwValue = i := by decide
  have hmap : usable2g reg =
      ((List.range max2gChannelNum).filter reg.available2g.getLsbD).map fun i => i :=
    List.map_congr_left fun i hi => by
      have hbit := h i (List.mem_filter.mp hi).2
      exact hentry i (by omega)
  rw [hmap, List.map_id']

theorem mem_usable2g (h : Mask2g reg) {c : ℕ} (hc : c ∈ usable2g reg) : 1 ≤ c ∧ c ≤ 14 := by
  rw [usable2g_eq h] at hc
  exact h c (List.mem_filter.mp hc).2

theorem pairwise_usable2g (h : Mask2g reg) : (usable2g reg).Pairwise fun a b => a + 1 ≤ b := by
  rw [usable2g_eq h]
  exact List.pairwise_lt_range.filter _

theorem usable5g_sublist (cfg : RegCfg) (rules : List RegRule) (reg : RegState) :
    (usable5g cfg rules reg).Sublist
      ((List.range max5gChannelNum).map fun i => (entry chantable5ghz i).hwValue) := by
  unfold usable5g
  split
  · exact List.filter_sublist.map _
  · exact List.nil_sublist _

theorem mem_usable5g {c : ℕ} (hc : c ∈ usable5g cfg rules reg) : 36 ≤ c ∧ c ≤ 165 := by
  have hall : ∀ c ∈ (List.range max5gChannelNum).map fun i => (entry chantable5ghz i).hwValue,
      36 ≤ c ∧ c ≤ 165 := by decide
  exact hall c ((usable5g_sublist cfg rules reg).subset hc)

theorem pairwise_usable5g (cfg : RegCfg) (rules : List RegRule) (reg : RegState) :
    (usable5g cfg rules reg).Pairwise fun a b => a + 4 ≤ b := by
  refine List.Pairwise.sublist (usable5g_sublist cfg rules reg) ?_
  decide

/-! ## The element -/

/-- The triplets of both bands. What stands behind those of the 2.4 GHz band without a channel of
the 5 GHz band is channel 0, or the last triplet again. -/
structure Emitted (u2 u5 : List ℕ) (ts : List (ℕ × ℕ)) : Prop where
  both : u5 ≠ [] → ts = (listed 1 u2).map (toTriplet 1) ++ (listed 4 u5).map (toTriplet 4)
  one : u5 = [] → ∃ t, ts = (listed 1 u2).map (toTriplet 1) ++ [t] ∧ t.1 ≤ 14 ∧
    1 ≤ t.2 ∧ t.2 < 256

theorem length_listed (hd : 0 < d) (h : cs.Pairwise fun a b => a + d ≤ b) :
    (listed d cs).length = max 1 (starts d cs).length := by
  cases cs with
  | nil => rfl
  | cons c cs =>
    have hlen := length_runs hd h
    have hpos : 0 < (runs d (c :: cs)).length :=
      List.length_pos_iff.mpr (runs_ne_nil d (List.cons_ne_nil c cs))
    have hlisted : listed d (c :: cs) = runs d (c :: cs) := rfl
    rw [hlisted]
    omega

theorem Emitted.length {u2 u5 : List ℕ} {ts : List (ℕ × ℕ)} (h : Emitted u2 u5 ts)
    (h2 : u2.Pairwise fun a b => a + 1 ≤ b) (h5 : u5.Pairwise fun a b => a + 4 ≤ b) :
    ts.length = max 1 (starts 1 u2).length + max 1 (starts 4 u5).length := by
  have hlen2 := length_listed (by decide) h2
  have hlen5 := length_listed (by decide) h5
  by_cases hnone : u5 = []
  · obtain ⟨t, rfl, -⟩ := h.one hnone
    rw [List.length_append, List.length_map, hlen2, List.length_singleton, hnone]
    rfl
  · rw [h.both hnone, List.length_append, List.length_map, List.length_map, hlen2, hlen5]

/-- The octets between the length octet and the octet that makes the length even. -/
def countryOctets (dom : Regdomain) (ts : List (ℕ × ℕ)) : List UInt8 :=
  dom.alpha2.1 :: dom.alpha2.2 :: 0 :: ts.flatMap tripletOctets

theorem length_flatMap_tripletOctets (ts : List (ℕ × ℕ)) :
    (ts.flatMap tripletOctets).length = 3 * ts.length := by
  induction ts with
  | nil => rfl
  | cons t ts ih =>
    have hlen : (tripletOctets t).length = 3 := rfl
    rw [List.flatMap_cons, List.length_append, ih, hlen, List.length_cons]
    omega

/-- The octet that makes the length of an element with `n` triplets even. -/
def padding (n : ℕ) : List UInt8 := if (5 + 3 * n) % 2 = 1 then [0] else []

theorem length_padding (n : ℕ) : (padding n).length = (5 + 3 * n) % 2 := by
  unfold padding
  split <;> simp <;> omega

/-- What is done once the triplets are written: the length is made even and filled in. -/
theorem finish_eq (eid : Cursor) (x : UInt8) {rest : List UInt8} {n : ℕ}
    (hrest : rest.length = 3 + 3 * n) {pos : Cursor}
    (hpos : pos = eid.write (eidCountry :: x :: rest)) :
    (if (pos.pos - eid.pos) % 2 = 1 then pos.put 0 else pos).poke (eid.pos + 1)
      (UInt8.ofNat ((if (pos.pos - eid.pos) % 2 = 1 then pos.put 0 else pos).pos - eid.pos - 2)) =
        eid.write (eidCountry :: UInt8.ofNat (countrySize n - 2) :: (rest ++ padding n)) := by
  have hsize : pos.pos - eid.pos = 5 + 3 * n := by
    rw [hpos, Cursor.write_pos, List.length_cons, List.length_cons, hrest]
    omega
  have hpad : (if (pos.pos - eid.pos) % 2 = 1 then pos.put 0 else pos) =
      eid.write (eidCountry :: x :: (rest ++ padding n)) := by
    rw [hsize, hpos, padding]
    split <;> simp
  have hlen : (eid.write (eidCountry :: x :: (rest ++ padding n))).pos - eid.pos - 2 =
      countrySize n - 2 := by
    rw [Cursor.write_pos, List.length_cons, List.length_cons, List.length_append, length_padding,
      hrest, countrySize]
    omega
  rw [hpad, hlen, eid.poke_write _ _ (by simp)]
  rfl

/-- The triplets are added one by one, whether there is 5 GHz or not. -/
theorem country_triplets (h2 : Mask2g reg) (limit : ℕ) (cfg : RegCfg) (rules : List RegRule)
    (pos : Cursor) : ∃ ts, Emitted (usable2g reg) (usable5g cfg rules reg) ts ∧
      (if cfg.support5g then
        (country5g limit cfg rules reg ((country2g limit reg pos).flush limit 1)).flush limit 4
      else { country2g limit reg pos with pos := (country2g limit reg pos).flush limit 1 }.flush
        limit 1) = ts.foldl (addTriplet limit) pos := by
  have hu2 : ∀ c ∈ usable2g reg, c ≠ 0 ∧ c < 255 := fun c hc => by
    have := mem_usable2g h2 hc
    omega
  obtain ⟨front, last, hlisted, hs, he, hflush⟩ := countryStep_flush limit 1 hu2 pos
  rw [← country2g_eq] at hs he hflush
  have hlast : last ∈ listed 1 (usable2g reg) := by
    rw [hlisted]
    exact List.mem_append_right _ List.mem_cons_self
  split
  next h5 =>
    have hu5 : ∀ c ∈ usable5g cfg rules reg, c ≠ 0 ∧ c < 255 := fun c hc => by
      have := mem_usable5g hc
      omega
    obtain ⟨-, -, -, -, -, hflush5⟩ := countryStep_flush limit 4 hu5
      ((country2g limit reg pos).flush limit 1)
    rw [← country5g_eq h5] at hflush5
    refine ⟨(listed 1 (usable2g reg)).map (toTriplet 1) ++
      (listed 4 (usable5g cfg rules reg)).map (toTriplet 4), ⟨fun _ => rfl, fun hnone => ?_⟩, ?_⟩
    · rw [hnone]
      exact ⟨(0, 1), rfl, by decide, by decide, by decide⟩
    · rw [hflush5, hflush, List.foldl_append]
  next h5 =>
    have hnone : usable5g cfg rules reg = [] := if_neg h5
    have hsmall := small_of_mem_listed (fun c hc => (hu2 c hc).2) hlast
    have hbound := (le_of_mem_listed (fun c hc => (mem_usable2g h2 hc).2) hlast).2
    refine ⟨(listed 1 (usable2g reg)).map (toTriplet 1) ++ [toTriplet 1 last],
      ⟨fun hne => absurd hnone hne, fun _ => ⟨_, rfl, ?_, Nat.succ_pos _, ?_⟩⟩, ?_⟩
    · exact hsmall.1.trans hbound
    · rw [toTriplet, size, Nat.div_one]
      omega
    · rw [List.foldl_append, ← hflush, List.foldl_cons, List.foldl_nil,
        ← hostapdEidCountryAdd_eq hsmall, ← hs, ← he]
      rfl

/-- The element has as many of the triplets as there is room for. -/
theorem hostapdEidCountry_eq (cfg : RegCfg) {regdom : List Regdomain} {dom : Regdomain}
    {maxLen : ℕ} (hdom : getRegdomain regdom reg.alpha2 = some dom) (h2 : Mask2g reg)
    (hlen : 6 ≤ maxLen) (eid : Cursor) :
    ∃ ts, Emitted (usable2g reg) (usable5g cfg dom.regRules reg) ts ∧
      hostapdEidCountry regdom cfg reg maxLen eid =
        eid.write (eidCountry ::
          UInt8.ofNat (countrySize (ts.take ((maxLen - 5) / 3)).length - 2) ::
            (countryOctets dom (ts.take ((maxLen - 5) / 3)) ++
              padding (ts.take ((maxLen - 5) / 3)).length)) := by
  set pos := (((((eid.put eidCountry).advance 1).put dom.alpha2.1).put dom.alpha2.2).put 0)
    with hpos
  obtain ⟨ts, hts, hfold⟩ := country_triplets h2 (eid.pos + maxLen) cfg dom.regRules pos
  refine ⟨ts, hts, ?_⟩
  have hhead : pos = eid.write [eidCountry, (eid.put eidCountry).mem (eid.pos + 1),
      dom.alpha2.1, dom.alpha2.2, 0] := by
    rw [hpos, Cursor.advance_eq_write]
    simp [slice]
  have hroom : eid.pos + maxLen - pos.pos = maxLen - 5 := by
    rw [hhead, Cursor.write_pos]
    simp only [List.length_cons, List.length_nil]
    omega
  have hwritten : ts.foldl (addTriplet (eid.pos + maxLen)) pos =
      eid.write (eidCountry :: (eid.put eidCountry).mem (eid.pos + 1) ::
        countryOctets dom (ts.take ((maxLen - 5) / 3))) := by
    rw [addTriplet_foldl, hroom, hhead, Cursor.write_write]
    rfl
  rw [hostapdEidCountry, if_neg (by omega)]
  simp only [hdom, ← hpos, hfold]
  refine finish_eq eid _ ?_ hwritten
  rw [countryOctets, List.length_cons, List.length_cons, List.length_cons,
    length_flatMap_tripletOctets]
  omega

/-! ## What the element lists -/

/-- The channels of a triplet as a pair. -/
def channels (t : ℕ × ℕ) : List ℕ := decodeTriplet t.1 t.2

theorem length_channels (t : ℕ × ℕ) : (channels t).length = t.2 := by
  rw [channels, decodeTriplet, List.length_map, List.length_range]

/-- Channel numbers and numbers of channels come back from the octets. -/
theorem decodeTriplets_eq {ts : List (ℕ × ℕ)} (hts : ∀ t ∈ ts, t.1 < 256 ∧ t.2 < 256)
    {rest : List UInt8} (hrest : rest.length < 3) :
    decodeTriplets (ts.flatMap tripletOctets ++ rest) = ts.flatMap channels := by
  induction ts with
  | nil =>
    rcases rest with _ | ⟨a, _ | ⟨b, _ | ⟨c, rest⟩⟩⟩
    · rfl
    · rfl
    · rfl
    · simp only [List.length_cons] at hrest
      omega
  | cons t ts ih =>
    obtain ⟨h1, h2⟩ := hts t List.mem_cons_self
    have htail := ih fun t ht => hts t (List.mem_cons_of_mem _ ht)
    have hfirst : (UInt8.ofNat t.1).toNat = t.1 := by
      rw [UInt8.toNat_ofNat', Nat.mod_eq_of_lt h1]
    have hcount : (UInt8.ofNat t.2).toNat = t.2 := by
      rw [UInt8.toNat_ofNat', Nat.mod_eq_of_lt h2]
    rw [List.flatMap_cons, List.append_assoc, List.flatMap_cons, ← htail]
    change decodeTriplet _ _ ++ decodeTriplets _ = _
    rw [hfirst, hcount, channels]
    rfl

theorem toTriplet_lt {r : ℕ × ℕ} (hr : Small r) (d : ℕ) :
    (toTriplet d r).1 < 256 ∧ (toTriplet d r).2 < 256 := by
  obtain ⟨hle, hlt⟩ := hr
  have hdiv := Nat.div_le_self (r.2 - r.1) d
  constructor
  · change r.1 < 256
    omega
  · change (r.2 - r.1) / d + 1 < 256
    omega

/-- What is written for a band with channels lists its channels. -/
theorem channels_listed (hd : 0 < d) (hcs : cs ≠ []) (hstep : ∀ c ∈ cs, stepOf c = d) :
    ((listed d cs).map (toTriplet d)).flatMap channels = cs := by
  have hlisted : listed d cs = runs d cs := by
    cases cs with
    | nil => exact absurd rfl hcs
    | cons c cs => rfl
  have hmembers : ∀ r ∈ runs d cs, channels (toTriplet d r) = members d r := fun r hr => by
    rw [channels, decodeTriplet, toTriplet, hstep _ (mem_runs hr).1, members]
  rw [hlisted, List.flatMap_map, List.flatMap_congr hmembers, flatMap_members_runs hd]

theorem length_starts_pos (hd : 0 < d) (h : cs.Pairwise fun a b => a + d ≤ b) (hcs : cs ≠ []) :
    0 < (starts d cs).length := by
  rw [← length_runs hd h]
  exact List.length_pos_iff.mpr (runs_ne_nil d hcs)

/-- The channels of the two bands: in each band in order, and in their band. -/
structure Bands (u2 u5 : List ℕ) : Prop where
  pairwise2 : u2.Pairwise fun a b => a + 1 ≤ b
  pairwise5 : u5.Pairwise fun a b => a + 4 ≤ b
  mem2 : ∀ c ∈ u2, 1 ≤ c ∧ c ≤ 14
  mem5 : ∀ c ∈ u5, 36 ≤ c ∧ c ≤ 165

variable {u2 u5 : List ℕ} {ts : List (ℕ × ℕ)}

theorem Bands.step2 (h : Bands u2 u5) : ∀ c ∈ u2, stepOf c = 1 := fun c hc => by
  have hbounds := h.mem2 c hc
  exact if_neg fun h5 : 16 < c => by omega

theorem Bands.step5 (h : Bands u2 u5) : ∀ c ∈ u5, stepOf c = 4 := fun c hc => by
  have hbounds := h.mem5 c hc
  exact if_pos (show 16 < c by omega)

theorem Bands.small (h : Bands u2 u5) (hts : Emitted u2 u5 ts) :
    ∀ t ∈ ts, t.1 < 256 ∧ t.2 < 256 := by
  have hlisted : ∀ {d cs}, (∀ c ∈ cs, c < 255) → ∀ t ∈ (listed d cs).map (toTriplet d),
      t.1 < 256 ∧ t.2 < 256 := fun hcs t ht => by
    obtain ⟨r, hr, rfl⟩ := List.mem_map.mp ht
    exact toTriplet_lt (small_of_mem_listed hcs hr) _
  have h2 : ∀ c ∈ u2, c < 255 := fun c hc => by
    have := h.mem2 c hc
    omega
  have h5 : ∀ c ∈ u5, c < 255 := fun c hc => by
    have := h.mem5 c hc
    omega
  intro t ht
  by_cases hnone : u5 = []
  · obtain ⟨last, rfl, hlast1, -, hlast2⟩ := hts.one hnone
    rcases List.mem_append.mp ht with ht | ht
    · exact hlisted h2 t ht
    · rw [List.mem_singleton.mp ht]
      omega
  · rw [hts.both hnone] at ht
    exact (List.mem_append.mp ht).elim (hlisted h2 t) (hlisted h5 t)

/-- Without a channel of 5 GHz, the channels of 2.4 GHz are listed if the further triplet is not. -/
theorem lists_iff_of_none5 (h : Bands u2 []) {t : ℕ × ℕ} (hcount : 0 < t.2) {cap : ℕ}
    (hcap : (starts 1 u2).length ≤ cap) :
    ((((listed 1 u2).map (toTriplet 1) ++ [t]).take cap).flatMap channels).Perm u2 ↔
      cap = (starts 1 u2).length := by
  by_cases hnone2 : u2 = []
  · subst hnone2
    cases cap with
    | zero => simp [starts]
    | succ cap =>
      refine iff_of_false (fun hperm => ?_) (Nat.succ_ne_zero cap)
      have hlen := hperm.length_eq
      simp [listed, toTriplet, size, length_channels] at hlen
  · have hpos := length_starts_pos (by decide) h.pairwise2 hnone2
    have hfirst := channels_listed (by decide) hnone2 h.step2
    have hlength : ((listed 1 u2).map (toTriplet 1)).length = (starts 1 u2).length := by
      rw [List.length_map, length_listed (by decide) h.pairwise2]
      omega
    rcases Nat.eq_or_lt_of_le hcap with hcap | hcap
    · rw [List.take_left' (by omega), hfirst]
      exact iff_of_true (List.Perm.refl u2) hcap.symm
    · rw [List.take_of_length_le
        (by rw [List.length_append, hlength, List.length_singleton]; omega),
        List.flatMap_append, hfirst]
      refine iff_of_false (fun hperm => ?_) (by omega)
      have hlen := hperm.length_eq
      simp only [List.length_append, List.flatMap_singleton, length_channels] at hlen
      omega

/-- Where there is room for the runs, the channels are listed if no triplet but theirs is. -/
theorem Emitted.lists_iff (hts : Emitted u2 u5 ts) (h : Bands u2 u5) {cap : ℕ}
    (hcap : numRuns u2 u5 ≤ cap) : ((ts.take cap).flatMap channels).Perm (u2 ++ u5) ↔
      (u2 ≠ [] ∧ u5 ≠ []) ∨ (u5 = [] ∧ cap = numRuns u2 u5) := by
  have hlen2 := length_listed (by decide) h.pairwise2
  have hlen5 := length_listed (by decide) h.pairwise5
  by_cases hnone5 : u5 = []
  · subst hnone5
    obtain ⟨t, rfl, -, hcount, -⟩ := hts.one rfl
    have hruns : numRuns u2 [] = (starts 1 u2).length := Nat.add_zero _
    rw [hruns] at hcap ⊢
    simpa using lists_iff_of_none5 h hcount hcap
  · have hpos5 := length_starts_pos (by decide) h.pairwise5 hnone5
    rw [hts.both hnone5]
    by_cases hnone2 : u2 = []
    · subst hnone2
      refine iff_of_false (fun hperm => ?_) (by simp [hnone5])
      have hzero : 0 ∈ ((((listed 1 []).map (toTriplet 1) ++ (listed 4 u5).map (toTriplet 4)).take
          cap).flatMap channels) := by
        obtain ⟨k, rfl⟩ : ∃ k, cap = k + 1 :=
          Nat.exists_eq_succ_of_ne_zero (by unfold numRuns at hcap; omega)
        simp [listed, toTriplet, size, channels, decodeTriplet]
      have hmem := hperm.subset hzero
      rw [List.nil_append] at hmem
      have := h.mem5 0 hmem
      omega
    · have hpos2 := length_starts_pos (by decide) h.pairwise2 hnone2
      rw [List.take_of_length_le (by
        rw [List.length_append, List.length_map, List.length_map]
        unfold numRuns at hcap
        omega), List.flatMap_append, channels_listed (by decide) hnone2 h.step2,
        channels_listed (by decide) hnone5 h.step5]
      exact iff_of_true (List.Perm.refl _) (.inl ⟨hnone2, hnone5⟩)

theorem bands_usable (h2 : Mask2g reg) (cfg : RegCfg) (rules : List RegRule) :
    Bands (usable2g reg) (usable5g cfg rules reg) where
  pairwise2 := pairwise_usable2g h2
  pairwise5 := pairwise_usable5g cfg rules reg
  mem2 _ := mem_usable2g h2
  mem5 _ := mem_usable5g

theorem starts_usable_le (cfg : RegCfg) (rules : List RegRule) (reg : RegState) :
    (starts 1 (usable2g reg)).length ≤ 16 ∧ (starts 4 (usable5g cfg rules reg)).length ≤ 25 := by
  constructor
  · refine (List.length_filter_le _ _).trans ?_
    rw [usable2g, List.length_map]
    exact List.length_filter_le _ _
  · exact (List.length_filter_le _ _).trans (usable5g_sublist cfg rules reg).length_le

/-- What stands behind the length octet, with the padding. -/
theorem length_countryBody (dom : Regdomain) (ts : List (ℕ × ℕ)) :
    (countryOctets dom ts ++ padding ts.length).length = countrySize ts.length - 2 := by
  rw [List.length_append, length_padding, countryOctets, List.length_cons, List.length_cons,
    List.length_cons, length_flatMap_tripletOctets, countrySize]
  omega

theorem country_write_pos (dom : Regdomain) (ts : List (ℕ × ℕ)) (eid : Cursor) (len : UInt8) :
    (eid.write (eidCountry :: len :: (countryOctets dom ts ++ padding ts.length))).pos =
      eid.pos + countrySize ts.length := by
  rw [Cursor.write_pos, List.length_cons, List.length_cons, length_countryBody, countrySize]
  omega

/-- There is room for the octet that makes the length even, and if there is room for all runs, each
band has a channel, or the 5 GHz band has none and there is no room for a further triplet. -/
def CountryFits (u2 u5 : List ℕ) (maxLen : ℕ) : Prop :=
  ¬ (maxLen % 6 = 5 ∧
    maxLen ≤ 5 + 3 * (max 1 (starts 1 u2).length + max 1 (starts 4 u5).length)) ∧
  (countrySize (numRuns u2 u5) ≤ maxLen →
    (u2 ≠ [] ∧ u5 ≠ []) ∨ (u5 = [] ∧ maxLen < 8 + 3 * numRuns u2 u5))

instance (u2 u5 : List ℕ) (maxLen : ℕ) : Decidable (CountryFits u2 u5 maxLen) :=
  inferInstanceAs (Decidable (_ ∧ _))

/-- The Country element is well formed, within its room, and lists what it should exactly where its
triplets and its padding fit and no band is without channels. -/
theorem hostapdEidCountry_right_iff (regdom : List Regdomain) (cfg : RegCfg) (reg : RegState)
    (dom : Regdomain) (maxLen : ℕ) (eid : Cursor)
    (hdom : getRegdomain regdom reg.alpha2 = some dom) (h2 : Mask2g reg) (hlen : 6 ≤ maxLen) :
    CountryRight (usable2g reg) (usable5g cfg dom.regRules reg) maxLen eid
      (hostapdEidCountry regdom cfg reg maxLen eid) ↔
        CountryFits (usable2g reg) (usable5g cfg dom.regRules reg) maxLen := by
  obtain ⟨ts, hts, heq⟩ := hostapdEidCountry_eq cfg hdom h2 hlen eid
  have hbands := bands_usable h2 cfg dom.regRules
  have htotal := hts.length hbands.pairwise2 hbands.pairwise5
  obtain ⟨hstarts2, hstarts5⟩ := starts_usable_le cfg dom.regRules reg
  set cap := (maxLen - 5) / 3 with hcap
  have hnmin : (ts.take cap).length = min cap ts.length := List.length_take
  have hsmall : countrySize (ts.take cap).length - 2 < 256 := by
    unfold countrySize
    omega
  have helement : IsElement eid (hostapdEidCountry regdom cfg reg maxLen eid) := by
    rw [heq, isElement_write, UInt8.toNat_ofNat', Nat.mod_eq_of_lt hsmall, length_countryBody]
  have hpos : (hostapdEidCountry regdom cfg reg maxLen eid).pos =
      eid.pos + countrySize (min cap ts.length) := by
    rw [heq, country_write_pos, hnmin]
  have hbody : decodeTriplets ((body eid (hostapdEidCountry regdom cfg reg maxLen eid)).drop 3) =
      (ts.take cap).flatMap channels := by
    rw [heq, body_write]
    refine decodeTriplets_eq (fun t ht => hbands.small hts t (List.mem_of_mem_take ht)) ?_
    rw [length_padding]
    omega
  have hinside : (hostapdEidCountry regdom cfg reg maxLen eid).pos ≤ eid.pos + maxLen ↔
      ¬ (maxLen % 6 = 5 ∧ maxLen ≤ 5 + 3 * (max 1 (starts 1 (usable2g reg)).length +
        max 1 (starts 4 (usable5g cfg dom.regRules reg)).length)) := by
    rw [hpos, countrySize, ← htotal]
    omega
  have hlists : countrySize (numRuns (usable2g reg) (usable5g cfg dom.regRules reg)) ≤ maxLen →
      (((ts.take cap).flatMap channels).Perm (usable2g reg ++ usable5g cfg dom.regRules reg) ↔
        (usable2g reg ≠ [] ∧ usable5g cfg dom.regRules reg ≠ []) ∨
          (usable5g cfg dom.regRules reg = [] ∧
            maxLen < 8 + 3 * numRuns (usable2g reg) (usable5g cfg dom.regRules reg))) := by
    intro hroom
    rw [countrySize] at hroom
    rw [hts.lists_iff hbands (by omega)]
    refine or_congr_right (and_congr_right fun _ => ?_)
    omega
  constructor
  · intro hright
    exact ⟨hinside.mp hright.inside, fun hroom => (hlists hroom).mp (hbody ▸ hright.lists hroom)⟩
  · rintro ⟨hfits, hroom⟩
    refine ⟨?_, helement, hinside.mpr hfits, fun h => hbody ▸ (hlists h).mpr (hroom h)⟩
    rw [heq]
    exact eid.write_getElem (i := 0) _ (by simp)

/-- A domain with the channels 1 to 11, 36 to 48 and, with radar detection, 52 to 64. -/
def usDomain : Regdomain where
  alpha2 := (0x55, 0x53)
  regRules := [⟨2402000, 2472000, 0⟩, ⟨5170000, 5250000, 0⟩, ⟨5250000, 5330000, 0x10⟩]

/-- The masks of that domain. -/
def usMasks : RegState where
  alpha2 := (0x55, 0x53)
  available2g := 0x0ffe
  available5g := 0x00ff

theorem mask2g_usMasks : Mask2g usMasks := by
  have hall : ∀ i < 16, usMasks.available2g.getLsbD i = true → 1 ≤ i ∧ i ≤ 14 := by decide
  intro i hi
  exact hall i (BitVec.lt_of_getLsbD hi) hi

theorem hostapdEidCountry_right_usMasks :
    getRegdomain [usDomain] usMasks.alpha2 = some usDomain ∧
      CountryRight (usable2g usMasks) (usable5g ⟨true, true⟩ usDomain.regRules usMasks) 429
        Cursor.blank (hostapdEidCountry [usDomain] ⟨true, true⟩ usMasks 429 Cursor.blank) :=
  ⟨by decide, (hostapdEidCountry_right_iff [usDomain] ⟨true, true⟩ usMasks usDomain 429
    Cursor.blank (by decide) mask2g_usMasks (by decide)).mpr (by decide +kernel)⟩

/-- Without 5 GHz the channels 1 to 11 are listed twice. With 5 GHz, and room for two triplets and
no more, the octet that makes the length even lies behind the buffer. -/
theorem not_countryRight_usMasks :
    (getRegdomain [usDomain] usMasks.alpha2 = some usDomain ∧ Mask2g usMasks) ∧
    ¬ CountryRight (usable2g usMasks) (usable5g ⟨false, false⟩ usDomain.regRules usMasks) 429
        Cursor.blank (hostapdEidCountry [usDomain] ⟨false, false⟩ usMasks 429 Cursor.blank) ∧
    ¬ CountryRight (usable2g usMasks) (usable5g ⟨true, false⟩ usDomain.regRules usMasks) 11
        Cursor.blank (hostapdEidCountry [usDomain] ⟨true, false⟩ usMasks 11 Cursor.blank) := by
  refine ⟨⟨by decide, mask2g_usMasks⟩, fun h => ?_, fun h => ?_⟩
  · have hperm := h.lists (by decide +kernel)
    have hlength := hperm.length_eq
    revert hlength
    decide +kernel
  · have hinside := h.inside
    revert hinside
    decide +kernel

end Fullmac.Ap.Beacon
