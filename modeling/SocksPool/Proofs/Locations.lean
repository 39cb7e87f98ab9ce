import SocksPool.Proofs.Names
import SocksPool.Session.State

/-!
# Locations of endpoints

A proxy is handed to a web client as a location: a scheme, two slashes and the endpoint. The
writer of locations, the reader of locations and the reader of candidates each have a table
of schemes, and they have to agree. Every scheme that is written is one that candidates may
bear, and none is a scheme of the web, so the host of a location is read as the host of a
candidate is. An endpoint is clean, so nothing in it ends the authority of the location. The
location then names the host and the port of the endpoint and nothing else, a client
accepts it, and as a candidate it is the endpoint again.

A pool knows normal forms only, so all this holds of every endpoint that it checks, of
every proxy that it hands out, and of every location that is loaded back into it.

## Main definitions

* `Endpoint.IsLocation` — a text is a location that names an endpoint and nothing else.
* `Probe.exchange` — what a probe does with the network.

## Main results

* `Endpoint.isLocation_of_scheme` — a known scheme makes a location of an endpoint.
* `Pool.locations_round_trip` — no pool refuses an endpoint for the way its location is
  written.
-/

namespace SocksPool

open Endpoint (write knownSchemes normalize?)

namespace Text

theorem cutFirst_append {sep : Char} {before : List Char} (h : sep ∉ before)
    (after : List Char) : cutFirst sep (before ++ sep :: after) = some (before, after) := by
  induction before with
  | nil => rw [List.nil_append, cutFirst, if_pos rfl]
  | cons c rest ih =>
      have hc : c ≠ sep := (List.ne_of_not_mem_cons h).symm
      rw [List.cons_append, cutFirst, if_neg hc, ih (List.not_mem_of_not_mem_cons h)]
      rfl

end Text

/-! ## Reading locations -/

namespace Url

/-- A text without spaces and controls counts as it is. -/
theorem clean_of_forall {text : List Char} (h : ∀ c ∈ text, 0x20 < c.toNat) :
    clean text = text := by
  have houter : ∀ c ∈ text, decide (c.toNat ≤ 0x20) = false := fun c hc => by
    simpa using h c hc
  have hstart : text.dropWhile (fun c => decide (c.toNat ≤ 0x20)) = text :=
    Text.dropWhile_of_head? fun c hc => houter c (List.mem_of_head? hc)
  simp only [clean, hstart, Text.dropEndWhile_of_forall houter]
  refine List.filter_eq_self.2 fun c hc => ?_
  have hlow := h c hc
  simp only [Bool.not_eq_true', Bool.or_eq_false_iff, decide_eq_false_iff_not]
  refine ⟨⟨?_, ?_⟩, ?_⟩ <;> rintro rfl <;> exact absurd hlow (by decide)

/-- The names of the known schemes. -/
def schemeNames : List (List Char) :=
  knownSchemes.map fun scheme => scheme.take (scheme.length - 3)

/-- A known scheme is split off at its colon. -/
theorem splitScheme?_append {name : List Char} (hname : name ∈ schemeNames) (rest : List Char) :
    splitScheme? (name ++ ':' :: rest) = some (name, rest) := by
  have hnames : ∀ name ∈ schemeNames, ':' ∉ name ∧
      splitScheme? (name ++ [':']) = some (name, []) := by decide
  obtain ⟨hcolon, hsplit⟩ := hnames name hname
  rw [splitScheme?, Text.cutFirst_append hcolon] at hsplit ⊢
  cases name with
  | nil => cases hsplit
  | cons c more =>
      dsimp only at hsplit ⊢
      split at hsplit
      · next hallowed =>
        obtain ⟨hlower, -⟩ := Prod.mk.inj (Option.some.inj hsplit)
        rw [if_pos hallowed, hlower]
      · cases hsplit

variable {host : Host} {port : Nat}

/-- Behind a scheme without special rules a written endpoint is the whole authority. -/
theorem readAfterSlashes_write {scheme : List Char} (hscheme : isSpecial scheme = false)
    (h : host.Settled) (hnonempty : host.print ≠ []) (hport : port ≤ 65535) :
    readAfterSlashes scheme (write host port) =
      .ok ⟨scheme, some ⟨[], [], host, some port⟩, [], none, none⟩ := by
  have hwhole : ∀ c ∈ write host port, (!endsAuthority false c) = true := fun c hc => by
    obtain ⟨-, -, hends⟩ := Endpoint.unread_of_isClean (Endpoint.isClean_of_mem_write h hc)
    rw [endsAuthority, Bool.false_and, Bool.or_false]
    exact congrArg not hends
  have htake : (write host port).takeWhile (!endsAuthority false ·) = write host port :=
    List.takeWhile_eq_self_iff.2 hwhole
  have hdrop : (write host port).dropWhile (!endsAuthority false ·) = [] :=
    List.dropWhile_eq_nil_iff.2 hwhole
  have hdefault : defaultPort? scheme = none := Option.not_isSome_iff_eq_none.1 (by
    rw [← isSpecial, hscheme]
    decide)
  have hread := Endpoint.parse?_write h hnonempty hport
  simp [readAfterSlashes, hscheme, htake, hdrop, hread, tidy, hdefault, splitTail, Text.cutFirst,
    encodeTail, readPath, Text.Percent.encode]

/-- A known scheme in front of a written endpoint makes a location that names it. -/
theorem parseChars_write {name : List Char} (hname : name ∈ schemeNames) (h : host.Settled)
    (hnonempty : host.print ≠ []) (hport : port ≤ 65535) :
    parseChars (name ++ "://".toList ++ write host port) =
      .ok ⟨name, some ⟨[], [], host, some port⟩, [], none, none⟩ := by
  have hnames : ∀ name ∈ schemeNames, isSpecial name = false ∧
      (name ++ "://".toList).all (0x20 < ·.toNat) = true := by decide
  obtain ⟨hforeign, hvisible⟩ := hnames name hname
  have hclean : clean (name ++ "://".toList ++ write host port) =
      name ++ ':' :: '/' :: '/' :: write host port := by
    rw [clean_of_forall]
    · simp
    · intro c hc
      rcases List.mem_append.1 hc with hmark | hwritten
      · exact of_decide_eq_true (List.all_eq_true.1 hvisible c hmark)
      · have hread := (Endpoint.unread_of_isClean (Endpoint.isClean_of_mem_write h hwritten)).1
        simpa [Endpoint.isControlOrSpace] using hread
  rw [parseChars, hclean, splitScheme?_append hname]
  dsimp only
  rw [readAfterScheme, hforeign]
  exact readAfterSlashes_write hforeign h hnonempty hport

end Url

/-! ## Locations of endpoints -/

namespace Endpoint

/-- A text is a location that names an endpoint and nothing else, a web client accepts it,
and as a candidate it is the endpoint. -/
structure IsLocation (text endpoint : String) : Prop where
  named : ∃ scheme host port, Url.parse text =
      .ok ⟨scheme, some ⟨[], [], host, some port⟩, [], none, none⟩ ∧
    endpoint.toList = write host port
  accepted : Url.isProxyUrl text = true
  normal : normalize? text = some endpoint

/-- A known scheme makes a location of an endpoint. -/
theorem isLocation_of_scheme {raw endpoint scheme : String}
    (hscheme : (scheme ++ "://").toList ∈ knownSchemes) (h : normalize? raw = some endpoint) :
    IsLocation (scheme ++ "://" ++ endpoint) endpoint := by
  obtain ⟨text, htext, rfl⟩ := Option.map_eq_some_iff.1 h
  obtain ⟨host, port, hsettled, hnonempty, hpos, hport, rfl⟩ := normalizeChars?_eq_some htext
  have hname : scheme.toList ∈ Url.schemeNames :=
    List.mem_map.2 ⟨_, hscheme, by simp⟩
  have hparse : Url.parse (scheme ++ "://" ++ String.ofList (write host port)) =
      .ok ⟨scheme.toList, some ⟨[], [], host, some port⟩, [], none, none⟩ := by
    have hchars := Url.parseChars_write hname hsettled hnonempty hport
    simpa [Url.parse] using hchars
  refine ⟨⟨_, host, port, hparse, String.toList_ofList⟩, ?_, ?_⟩
  · rw [Url.isProxyUrl, hparse]
    simp [Url.hasHost, hnonempty]
  · have hlower : ∀ known ∈ knownSchemes, IsScheme known := by decide
    have hend : ∀ c ∈ (write host port).getLast?, Text.isBlank c = false := fun c hc =>
      isBlank_of_isClean (isClean_of_mem_write hsettled (List.mem_of_getLast? hc))
    have hread := normalizeChars?_scheme (hlower _ hscheme) hend
    rw [readBare?_write hsettled hnonempty hpos hport] at hread
    rw [normalize?, String.toList_append, String.toList_ofList, hread]
    rfl

end Endpoint

open Endpoint (IsLocation isLocation_of_scheme)

/-- The schemes of proxies are known. -/
theorem Protocol.exists_scheme {protocol : Protocol} (hknown : protocol ≠ .unknown) :
    ∃ scheme, protocol.scheme? = some scheme ∧ (scheme ++ "://").toList ∈ knownSchemes := by
  cases protocol with
  | unknown => exact absurd rfl hknown
  | socks4 | socks4a | socks5 => exact ⟨_, rfl, by decide⟩

theorem Proxy.isLocation_url {proxy : Proxy} {raw : String} (hknown : proxy.protocol ≠ .unknown)
    (h : normalize? raw = some proxy.endpoint) : IsLocation proxy.url proxy.endpoint := by
  obtain ⟨scheme, hscheme, hlisted⟩ := Protocol.exists_scheme hknown
  rw [Proxy.url, hscheme]
  exact isLocation_of_scheme hlisted h

namespace Probe

/-- The schemes of probes are known. -/
theorem exists_scheme {protocol : Protocol} (hknown : protocol ≠ .unknown) :
    ∃ scheme, scheme? protocol = some scheme ∧ (scheme ++ "://").toList ∈ knownSchemes := by
  cases protocol with
  | socks5 => exact ⟨_, rfl, by decide⟩
  | unknown | socks4 | socks4a => exact Protocol.exists_scheme hknown

/-- What a probe does with the network: it asks for a page, and reads the exit off it. -/
def exchange (p : Probe) (n : Network) (protocol : Protocol) (endpoint page : String) :
    Talk PoolError Address := do
  let body ← (Web.read n ⟨route protocol endpoint, p.userAgents.head?⟩ page).adapt PoolError.http
  ExceptT.mk (pure (Echo.read body))

/-- No check stops at the location of an endpoint in normal form. -/
theorem check_eq_exchange {p : Probe} {protocol : Protocol} {raw endpoint page : String}
    (hknown : protocol ≠ .unknown) (h : normalize? raw = some endpoint)
    (hpage : p.echoEndpoints.head? = some page)
    (hagent : p.userAgents.head?.all Web.isHeaderValue = true) (n : Network) :
    p.check n protocol endpoint = p.exchange n protocol endpoint page := by
  obtain ⟨scheme, hscheme, hlisted⟩ := exists_scheme hknown
  have haccepted := (isLocation_of_scheme hlisted h).accepted
  rw [check, hscheme, hpage]
  simp only [haccepted, hagent]
  rfl

end Probe

/-- A client that is given a location it accepts does not find the proxy unusable. -/
theorem Session.usable_of_accepted {s : Session} {id : Nat} {task : Task}
    (h : ∀ proxy, task.proxy? = some proxy → Url.isProxyUrl proxy.url = true) (fault : HttpFault) :
    (s.news? id task).bind (·.2.move) ≠ some (.responded (.unusable fault)) := by
  unfold news?
  split
  · simp
  · split <;> simp
  · simp
  · next failures retries wait timeout cloneable patience proxy span since =>
      have hrefused : ¬ (!Url.isProxyUrl proxy.url) = true := by simp [h proxy rfl]
      rw [if_neg hrefused]
      intro hmove
      obtain ⟨outcome, -, hanswer⟩ := Option.map_eq_some_iff.1 (hmove :)
      cases outcome <;> cases hanswer
  · simp

namespace Pool

/-- Whatever the known protocol, an endpoint is read back from the location of its proxy, and
a web client accepts this location. So a pool that knows an endpoint checks it, hands it to
clients and takes its location for a candidate that is registered already, and never
refuses it for the way the location is written. -/
theorem locations_round_trip :
    (∀ raw e, normalize? raw = some e → ∀ proxy : Proxy, proxy.endpoint = e →
      proxy.protocol ≠ .unknown → IsLocation proxy.url e) ∧
    ∀ config slots p steps q, Pool.withSlots config slots = .ok p → Run p steps q →
      (∀ e, q.registry.contains e = true → ∀ protocol ≠ .unknown,
        (∀ proxy : Proxy, proxy.endpoint = e → proxy.protocol = protocol →
          q.load proxy.url = (q, .ok false)) ∧
        ∀ (probe : Probe) (n : Network) page, probe.echoEndpoints.head? = some page →
          probe.userAgents.head?.all Web.isHeaderValue = true →
          probe.check n protocol e = probe.exchange n protocol e page) ∧
      ∀ s : Session, s.pool = q → ∀ id task, q.task? id = some task → ∀ fault,
        (s.news? id task).bind (·.2.move) ≠ some (.responded (.unusable fault)) := by
  constructor
  · rintro raw _ h proxy rfl hknown
    exact proxy.isLocation_url hknown h
  · intro config slots p steps q hmade hrun
    have hblank := blank_of_withSlots hmade
    have horderly := orderly_of_withSlots hmade
    have hcanonical := (Canonical.of_blank hblank).throughout horderly hrun
    have htyped := typed_of_blank hblank
    have hvouched := (Vouched.of_blank hblank).throughout horderly htyped hrun
    constructor
    · intro e hin protocol hknown
      have hnormal := hcanonical.1.of_contains (horderly.throughout hrun).1 hin
      constructor
      · rintro proxy rfl rfl
        obtain ⟨life, hfind⟩ := Option.isSome_iff_exists.1 hin
        exact load_of_registered (proxy.isLocation_url hknown hnormal).normal hfind
      · intro probe n page hpage hagent
        exact Probe.check_eq_exchange hknown hnormal hpage hagent n
    · rintro s rfl id task htask fault
      refine Session.usable_of_accepted (fun proxy hproxy => ?_) fault
      obtain ⟨life, hsettled⟩ := hvouched.1 task (mem_crew_of_task? htask) proxy hproxy
      have hnormal := hcanonical.1 _ (Registry.mem_endpoints.2 ⟨life, hsettled.isLife⟩)
      exact (proxy.isLocation_url hsettled.1 hnormal).accepted

/-- An address is loaded behind a scheme, its round succeeds, and a request goes through its
proxy, whose location is then loaded. -/
theorem locations_round_trip_bracketed :
    ∃ p steps q, Pool.new Config.default = .ok p ∧ Run p steps q ∧
      steps.map Step.deed =
        [.load "SOCKS5://[2001:DB8::0:1]:01080/", .start, .move 0 .lockIntake, .move 0 .receive,
          .move 0 .forward, .move 1 .look, .move 3 .pick,
          .move 3 (.attempted (.ok (.v4 ⟨198, 51, 100, 7⟩))), .move 3 .deliver, .send true,
          .move 4 (.dispense .socks5), .move 4 (.redialled true)] ∧
      ∃ proxy : Proxy, proxy.url = "socks5h://[2001:db8::1]:1080" ∧
        IsLocation proxy.url "[2001:db8::1]:1080" ∧ q.load proxy.url = (q, .ok false) ∧
        (∀ n, (Probe.mk 1 ["http://echo/"] ["curl"]).check n .socks5 "[2001:db8::1]:1080" =
          (Probe.mk 1 ["http://echo/"] ["curl"]).exchange n .socks5 "[2001:db8::1]:1080"
            "http://echo/") ∧
        ∃ task, q.task? 4 = some task ∧ task.proxy? = some proxy ∧
          (({ pool := q } : Session).news? 4 task).bind (·.2.move) ≠
            some (.responded (.unusable .unreadable)) := by
  obtain ⟨p, hmade, hview⟩ : ∃ p, Pool.new Config.default = .ok p ∧
      (p.perform?
        [.load "SOCKS5://[2001:DB8::0:1]:01080/", .start, .move 0 .lockIntake, .move 0 .receive,
          .move 0 .forward, .move 1 .look, .move 3 .pick,
          .move 3 (.attempted (.ok (.v4 ⟨198, 51, 100, 7⟩))), .move 3 .deliver, .send true,
          .move 4 (.dispense .socks5), .move 4 (.redialled true)]).map
        (fun q => (q.registry.contains "[2001:db8::1]:1080", q.task? 4)) =
      some (true, some (.caller ⟨.send 0 3 30000000000 9000000000 true, none,
        .using ⟨"[2001:db8::1]:1080", .socks5, some (.v4 ⟨198, 51, 100, 7⟩), some 0, 1, 0⟩
          9000000000 0⟩)) := ⟨_, rfl, by decide +kernel⟩
  obtain ⟨steps, q, hrun, hdeeds, hseen⟩ := Run.of_view
    (fun q => (q.registry.contains "[2001:db8::1]:1080", q.task? 4)) hview
  simp only [Prod.mk.injEq] at hseen
  obtain ⟨hin, htask⟩ := hseen
  have hread : normalize? "SOCKS5://[2001:DB8::0:1]:01080/" = some "[2001:db8::1]:1080" := by
    decide +kernel
  obtain ⟨hlocation, hpool⟩ := locations_round_trip
  obtain ⟨hknown, hused⟩ := hpool _ _ _ _ _ hmade hrun
  obtain ⟨hload, hcheck⟩ := hknown _ hin .socks5 (by decide)
  refine ⟨p, steps, q, hmade, hrun, hdeeds,
    ⟨"[2001:db8::1]:1080", .socks5, some (.v4 ⟨198, 51, 100, 7⟩), some 0, 1, 0⟩, rfl, ?_, ?_, ?_,
    _, htask, rfl, ?_⟩
  · exact hlocation _ _ hread _ rfl (by decide)
  · exact hload _ rfl rfl
  · exact fun n => hcheck _ n _ rfl (by decide)
  · exact hused { pool := q } rfl 4 _ htask .unreadable

end Pool

end SocksPool
