import Mathlib.Data.List.Basic

/-!
# What CNI reports of a VIF, and what is put on its interface

`vif_to_cni_result` of `zun/cni/api.py` goes through the subnets of a VIF for the runtime, and
`_configure_l3` of `zun/cni/binding/base.py` goes through them for the interface, by way of the
dictionary of `osvif_vif_to_dict`.  The one takes the first address of a subnet, the other takes all.

An address, a gateway or a network is the text that `str` has for it.
-/

namespace Zun

namespace Cni

namespace Result

/-! ## The VIF -/

structure Cidr where
  version : Nat
  prefixlen : Nat
deriving DecidableEq

structure FixedIp where
  version : Nat
  address : String
deriving DecidableEq

structure Route where
  cidr : String
  gateway : String
deriving DecidableEq

structure Subnet where
  cidr : Cidr
  dns : List String := []
  gateway : Option String := none
  ips : List FixedIp := []
  routes : List Route := []
deriving DecidableEq

structure Network where
  subnets : List Subnet
  mtu : Nat
deriving DecidableEq

/-- An os_vif object.  Only some kinds have a physical network. -/
structure Vif where
  address : String
  vifName : String
  bridgeName : String
  network : Network
  physnet : Option String := none
deriving DecidableEq

/-! ## The result of ADD -/

structure Interface where
  name : String
  mac : String
  sandbox : String
deriving DecidableEq

structure CniIp where
  version : String
  address : String
  interface : Nat
  gateway : Option String
deriving DecidableEq

structure CniRoute where
  dst : String
  gw : String
deriving DecidableEq

structure CniResult where
  interfaces : List Interface
  ips : List CniIp
  routes : List CniRoute
  /-- `dns`, which is not there without a name server. -/
  nameservers : Option (List String)
deriving DecidableEq

/-- `"%s/%s" % (address, prefixlen)`. -/
def withPrefix (address : String) (prefixlen : Nat) : String := s!"{address}/{prefixlen}"

/-- What the result says of a subnet.  `objects[0]` raises when the subnet has no address. -/
def cniIp (subnet : Subnet) : Except String CniIp :=
  match subnet.ips with
  | [] => .error "IndexError: list index out of range"
  | ip :: _ =>
      .ok { version := toString ip.version,
            address := withPrefix ip.address subnet.cidr.prefixlen,
            interface := 0,
            gateway := subnet.gateway }

def cniRoutes (subnet : Subnet) : List CniRoute :=
  subnet.routes.map fun route => { dst := route.cidr, gw := route.gateway }

def vifToCniResult (vif : Vif) (ifname containerId : String) : Except String CniResult := do
  let ips ← vif.network.subnets.mapM cniIp
  let nameservers := vif.network.subnets.flatMap (·.dns)
  return { interfaces := [{ name := ifname, mac := vif.address, sandbox := containerId }],
           ips,
           routes := vif.network.subnets.flatMap cniRoutes,
           nameservers := if nameservers = [] then none else some nameservers }

/-! ## The dictionary -/

structure RouteDict where
  gateway : String
  cidr : String
deriving DecidableEq

structure SubnetDict where
  routes : List RouteDict
  /-- The addresses. -/
  ips : List String
  cidr : Cidr
  gateway : Option String
deriving DecidableEq

structure NetworkDict where
  subnets : List SubnetDict
  mtu : Nat
deriving DecidableEq

structure VifDict where
  network : NetworkDict
  vifName : String
  address : String
  bridgeName : String
deriving DecidableEq

def osvifRouteToDict (route : Route) : RouteDict := { gateway := route.gateway, cidr := route.cidr }

def osvifFipToDict (fip : FixedIp) : String := fip.address

def osvifSubnetToDict (subnet : Subnet) : SubnetDict :=
  { routes := subnet.routes.map osvifRouteToDict,
    ips := subnet.ips.map osvifFipToDict,
    cidr := subnet.cidr,
    gateway := subnet.gateway }

def osvifNetworkToDict (network : Network) : NetworkDict :=
  { subnets := network.subnets.map osvifSubnetToDict, mtu := network.mtu }

def osvifVifToDict (vif : Vif) : VifDict :=
  { network := osvifNetworkToDict vif.network,
    vifName := vif.vifName,
    address := vif.address,
    bridgeName := vif.bridgeName }

/-! ## The interface -/

/-- What is asked of the kernel for the interface. -/
inductive Request where
  /-- `_enable_ipv6`. -/
  | enableIpv6
  | addIp (address : String)
  | addRoute (gateway dst : String)
  | addDefaultRoute (gateway : String)
deriving DecidableEq

/-- What the kernel answers, after the requests that it has granted: an error code, or nothing. -/
abbrev Kernel := List Request → Request → Option Nat

inductive Failure where
  | key (name : String)
  /-- `NetlinkError`. -/
  | netlink (code : Nat)
deriving DecidableEq

def eexist : Nat := 17

/-- One request. -/
def ask (kernel : Kernel) (done : List Request) (r : Request) : Except Failure (List Request) :=
  match kernel done r with
  | none => .ok (done ++ [r])
  | some code => .error (.netlink code)

/-- The default route.  One that is there already is left as it is. -/
def askDefault (kernel : Kernel) (done : List Request) (gateway : String) :
    Except Failure (List Request) :=
  match kernel done (.addDefaultRoute gateway) with
  | none => .ok (done ++ [.addDefaultRoute gateway])
  | some code => if code = eexist then .ok done else .error (.netlink code)

/-- What a subnet of version 6 needs first. -/
def enableIpv6 (kernel : Kernel) (done : List Request) (subnet : SubnetDict) :
    Except Failure (List Request) :=
  if subnet.cidr.version = 6 then ask kernel done .enableIpv6 else .ok done

/-- The addresses of a subnet. -/
def configureIps (kernel : Kernel) (done : List Request) (subnet : SubnetDict) :
    Except Failure (List Request) := do
  let done ← enableIpv6 kernel done subnet
  subnet.ips.foldlM (fun done fip => ask kernel done (.addIp (withPrefix fip subnet.cidr.prefixlen)))
    done

/-- The routes of a subnet. -/
def configureRoutes (kernel : Kernel) (isDefaultGateway : Bool) (done : List Request)
    (subnet : SubnetDict) : Except Failure (List Request) := do
  let done ← subnet.routes.foldlM
    (fun done route => ask kernel done (.addRoute route.gateway route.cidr)) done
  match isDefaultGateway, subnet.gateway with
  | true, some gateway => askDefault kernel done gateway
  | _, _ => pure done

/-- `_configure_l3`. -/
def configureL3 (kernel : Kernel) (vif : VifDict) (isDefaultGateway : Bool) :
    Except Failure (List Request) := do
  let done ← vif.network.subnets.foldlM (configureIps kernel) []
  vif.network.subnets.foldlM (configureRoutes kernel isDefaultGateway) done

/-- The options on SR-IOV. -/
structure Config where
  sriovPhysnetResourceMappings : List (String × String) := []
  sriovResourceDriverMappings : List (String × String) := []

/-- `USERSPACE_DRIVERS`. -/
def userspaceDrivers : List String := ["vfio-pci", "uio", "uio_pci_generic", "igb_uio"]

/-- `_need_configure_l3`. -/
def needConfigureL3 (conf : Config) (vif : Vif) : Except Failure Bool :=
  match vif.physnet with
  | none => .ok true
  | some physnet =>
      match conf.sriovPhysnetResourceMappings.lookup physnet with
      | none => .error (.key physnet)
      | some resource =>
          match conf.sriovResourceDriverMappings.lookup resource with
          | none => .error (.key resource)
          | some driver => .ok (!userspaceDrivers.contains driver)

/-- `connect`, of which the binding driver leaves the interface without addresses. -/
def connect (conf : Config) (kernel : Kernel) (vif : Vif) (isDefaultGateway : Bool) :
    Except Failure (List Request) := do
  if ← needConfigureL3 conf vif then configureL3 kernel (osvifVifToDict vif) isDefaultGateway
  else pure []

/-! ## Loops that may raise -/

section

variable {ε α β σ : Type}

theorem bind_eq_ok {x : Except ε α} {f : α → Except ε β} {b : β} :
    (x >>= f) = .ok b ↔ ∃ a, x = .ok a ∧ f a = .ok b := by
  cases x with
  | error e => exact ⟨nofun, nofun⟩
  | ok a => exact ⟨fun h => ⟨a, rfl, h⟩, fun ⟨_, rfl, h⟩ => h⟩

/-- What a list has when each element is made from one of another. -/
theorem mapM_spec {f : α → Except ε β} {xs : List α} {ys : List β} (h : xs.mapM f = .ok ys) :
    (∀ x ∈ xs, ∃ y, f x = .ok y) ∧ ∀ y, y ∈ ys ↔ ∃ x ∈ xs, f x = .ok y := by
  induction xs generalizing ys with
  | nil =>
      cases h
      simp
  | cons x xs ih =>
      rw [List.mapM_cons, bind_eq_ok] at h
      obtain ⟨y, hy, h⟩ := h
      rw [bind_eq_ok] at h
      obtain ⟨ys', hys', h⟩ := h
      cases h
      obtain ⟨hall, hmem⟩ := ih hys'
      constructor
      · intro x' hx'
        rcases List.mem_cons.mp hx' with rfl | hx'
        · exact ⟨y, hy⟩
        · exact hall x' hx'
      · intro y'
        rw [List.mem_cons, hmem]
        constructor
        · rintro (rfl | ⟨x', hx', h'⟩)
          · exact ⟨x, by simp, hy⟩
          · exact ⟨x', by simp [hx'], h'⟩
        · rintro ⟨x', hx', h'⟩
          rcases List.mem_cons.mp hx' with rfl | hx'
          · rw [hy] at h'
            injection h' with h'
            exact .inl h'.symm
          · exact .inr ⟨x', hx', h'⟩

theorem mapM_of_forall {f : α → Except ε β} {xs : List α} (h : ∀ x ∈ xs, ∃ y, f x = .ok y) :
    ∃ ys, xs.mapM f = .ok ys := by
  induction xs with
  | nil => exact ⟨[], rfl⟩
  | cons x xs ih =>
      obtain ⟨y, hy⟩ := h x (by simp)
      obtain ⟨ys, hys⟩ := ih fun x' hx' => h x' (by simp [hx'])
      exact ⟨y :: ys, by rw [List.mapM_cons, hy, hys]; rfl⟩

/-- What is added by a loop whose every turn adds `R`, as far as `P` goes. -/
theorem mem_foldlM {f : List β → α → Except ε (List β)} {P : β → Prop} {R : α → β → Prop}
    (hf : ∀ done x done', f done x = .ok done' → ∀ r, P r → (r ∈ done' ↔ r ∈ done ∨ R x r))
    {xs : List α} {done done' : List β} (h : xs.foldlM f done = .ok done') (r : β) (hr : P r) :
    r ∈ done' ↔ r ∈ done ∨ ∃ x ∈ xs, R x r := by
  induction xs generalizing done with
  | nil =>
      cases h
      simp
  | cons x xs ih =>
      rw [List.foldlM_cons, bind_eq_ok] at h
      obtain ⟨next, hnext, h⟩ := h
      rw [ih h, hf done x next hnext r hr, or_assoc]
      simp

theorem foldlM_ok {f : σ → α → Except ε σ} (hf : ∀ done x, ∃ done', f done x = .ok done')
    (xs : List α) (done : σ) : ∃ done', xs.foldlM f done = .ok done' := by
  induction xs generalizing done with
  | nil => exact ⟨done, rfl⟩
  | cons x xs ih =>
      obtain ⟨next, hnext⟩ := hf done x
      obtain ⟨done', hdone'⟩ := ih next
      exact ⟨done', by rw [List.foldlM_cons, hnext]; exact hdone'⟩

end

/-! ## What is asked for -/

section

variable {kernel : Kernel} {done done' : List Request} {r : Request}

/-- An address or a route of a subnet. -/
def Request.OfSubnet : Request → Prop
  | .addIp _ | .addRoute _ _ => True
  | _ => False

theorem mem_ask {q : Request} (h : ask kernel done q = .ok done') : r ∈ done' ↔ r ∈ done ∨ r = q := by
  unfold ask at h
  split at h
  · cases h
    simp
  · cases h

theorem mem_askDefault {gateway : String} (h : askDefault kernel done gateway = .ok done')
    (hr : r.OfSubnet) : r ∈ done' ↔ r ∈ done := by
  have hne : r ≠ .addDefaultRoute gateway := by
    rintro rfl
    exact hr
  unfold askDefault at h
  split at h
  · cases h
    simp [hne]
  · split at h
    · cases h
      rfl
    · cases h

theorem mem_configureIps {subnet : SubnetDict} (h : configureIps kernel done subnet = .ok done')
    (hr : r.OfSubnet) :
    r ∈ done' ↔
      r ∈ done ∨ ∃ fip ∈ subnet.ips, r = .addIp (withPrefix fip subnet.cidr.prefixlen) := by
  unfold configureIps at h
  rw [bind_eq_ok] at h
  obtain ⟨next, hnext, h⟩ := h
  have hkeep : r ∈ next ↔ r ∈ done := by
    unfold enableIpv6 at hnext
    split at hnext
    · rw [mem_ask hnext]
      have hne : r ≠ .enableIpv6 := by
        rintro rfl
        exact hr
      simp [hne]
    · cases hnext
      rfl
  have hips := mem_foldlM (P := Request.OfSubnet)
    (R := fun fip r => r = .addIp (withPrefix fip subnet.cidr.prefixlen))
    (fun _ _ _ hask _ _ => mem_ask hask) h r hr
  rw [hips, hkeep]

theorem mem_configureRoutes {isDefaultGateway : Bool} {subnet : SubnetDict}
    (h : configureRoutes kernel isDefaultGateway done subnet = .ok done') (hr : r.OfSubnet) :
    r ∈ done' ↔ r ∈ done ∨ ∃ route ∈ subnet.routes, r = .addRoute route.gateway route.cidr := by
  unfold configureRoutes at h
  rw [bind_eq_ok] at h
  obtain ⟨next, hnext, h⟩ := h
  have hlast : r ∈ done' ↔ r ∈ next := by
    split at h
    · exact mem_askDefault h hr
    · cases h
      rfl
  have hroutes := mem_foldlM (P := Request.OfSubnet)
    (R := fun (route : RouteDict) r => r = .addRoute route.gateway route.cidr)
    (fun _ _ _ hask _ _ => mem_ask hask) hnext r hr
  rw [hlast, hroutes]

theorem mem_configureL3 {vif : VifDict} {isDefaultGateway : Bool}
    (h : configureL3 kernel vif isDefaultGateway = .ok done) (hr : r.OfSubnet) :
    r ∈ done ↔
      (∃ subnet ∈ vif.network.subnets, ∃ fip ∈ subnet.ips,
        r = .addIp (withPrefix fip subnet.cidr.prefixlen)) ∨
      ∃ subnet ∈ vif.network.subnets, ∃ route ∈ subnet.routes,
        r = .addRoute route.gateway route.cidr := by
  unfold configureL3 at h
  rw [bind_eq_ok] at h
  obtain ⟨next, hnext, h⟩ := h
  have hroutes := mem_foldlM (P := Request.OfSubnet)
    (R := fun (subnet : SubnetDict) r =>
      ∃ route ∈ subnet.routes, r = .addRoute route.gateway route.cidr)
    (fun _ _ _ hc _ hr => mem_configureRoutes hc hr) h r hr
  have hips := mem_foldlM (P := Request.OfSubnet)
    (R := fun (subnet : SubnetDict) r =>
      ∃ fip ∈ subnet.ips, r = .addIp (withPrefix fip subnet.cidr.prefixlen))
    (fun _ _ _ hc _ hr => mem_configureIps hc hr) hnext r hr
  rw [hroutes, hips]
  simp

/-- A kernel that grants everything. -/
def granting : Kernel := fun _ _ => none

theorem configureL3_granting (vif : VifDict) (isDefaultGateway : Bool) :
    ∃ done, configureL3 granting vif isDefaultGateway = .ok done := by
  have hask (q : Request) (done : List Request) : ask granting done q = .ok (done ++ [q]) := rfl
  obtain ⟨done, hdone⟩ := foldlM_ok (f := configureIps granting) (fun done subnet => by
    unfold configureIps enableIpv6
    split
    · exact foldlM_ok (fun done fip => ⟨_, hask _ done⟩) _ _
    · exact foldlM_ok (fun done fip => ⟨_, hask _ done⟩) _ _) vif.network.subnets []
  obtain ⟨done', hdone'⟩ := foldlM_ok (f := configureRoutes granting isDefaultGateway)
    (fun done subnet => by
      unfold configureRoutes
      obtain ⟨next, hnext⟩ := foldlM_ok
        (fun done (route : RouteDict) => ⟨_, hask (.addRoute route.gateway route.cidr) done⟩)
        subnet.routes done
      rw [hnext]
      simp only [bind, Except.bind]
      split
      · exact ⟨_, rfl⟩
      · exact ⟨_, rfl⟩) vif.network.subnets done
  exact ⟨done', by rw [configureL3, hdone]; exact hdone'⟩

end

/-! ## What is reported is what was configured -/

section

variable {conf : Config} {kernel : Kernel} {vif : Vif} {isDefaultGateway : Bool} {done : List Request}

theorem connect_eq (h : needConfigureL3 conf vif = .ok true) :
    connect conf kernel vif isDefaultGateway =
      configureL3 kernel (osvifVifToDict vif) isDefaultGateway := by
  rw [connect, h]
  rfl

/-- The addresses that are put on the interface are those of the subnets. -/
theorem addIp_mem_connect (h : needConfigureL3 conf vif = .ok true)
    (hdone : connect conf kernel vif isDefaultGateway = .ok done) (a : String) :
    .addIp a ∈ done ↔
      ∃ subnet ∈ vif.network.subnets, ∃ ip ∈ subnet.ips,
        a = withPrefix ip.address subnet.cidr.prefixlen := by
  rw [connect_eq h] at hdone
  rw [mem_configureL3 hdone (show (Request.addIp a).OfSubnet from trivial)]
  simp [osvifVifToDict, osvifNetworkToDict, osvifSubnetToDict, osvifFipToDict]

theorem addRoute_mem_connect (h : needConfigureL3 conf vif = .ok true)
    (hdone : connect conf kernel vif isDefaultGateway = .ok done) (gateway dst : String) :
    .addRoute gateway dst ∈ done ↔
      ∃ subnet ∈ vif.network.subnets, ∃ route ∈ subnet.routes,
        gateway = route.gateway ∧ dst = route.cidr := by
  rw [connect_eq h] at hdone
  rw [mem_configureL3 hdone (show (Request.addRoute gateway dst).OfSubnet from trivial)]
  simp [osvifVifToDict, osvifNetworkToDict, osvifSubnetToDict, osvifRouteToDict]

end

section

variable {vif : Vif} {ifname containerId : String}

theorem cniIp_eq_ok {subnet : Subnet} {ip : CniIp} (h : cniIp subnet = .ok ip) :
    ∃ first, subnet.ips.head? = some first ∧
      ip.address = withPrefix first.address subnet.cidr.prefixlen := by
  unfold cniIp at h
  split at h
  · cases h
  next first rest hips =>
    cases h
    exact ⟨first, by simp [hips], rfl⟩

theorem exists_cniIp {subnet : Subnet} : (∃ ip, cniIp subnet = .ok ip) ↔ subnet.ips ≠ [] := by
  unfold cniIp
  cases subnet.ips <;> simp

theorem vifToCniResult_spec {result : CniResult} (h : vifToCniResult vif ifname containerId = .ok result) :
    (∀ subnet ∈ vif.network.subnets, subnet.ips ≠ []) ∧
      (∀ a, (∃ ip ∈ result.ips, ip.address = a) ↔
        ∃ subnet ∈ vif.network.subnets, ∃ first, subnet.ips.head? = some first ∧
          a = withPrefix first.address subnet.cidr.prefixlen) ∧
      result.routes = vif.network.subnets.flatMap cniRoutes := by
  unfold vifToCniResult at h
  rw [bind_eq_ok] at h
  obtain ⟨ips, hips, h⟩ := h
  cases h
  obtain ⟨hall, hmem⟩ := mapM_spec hips
  refine ⟨fun subnet hs => exists_cniIp.mp (hall subnet hs), fun a => ?_, rfl⟩
  constructor
  · rintro ⟨ip, hip, rfl⟩
    obtain ⟨subnet, hs, hok⟩ := (hmem ip).mp hip
    obtain ⟨first, hfirst, haddress⟩ := cniIp_eq_ok hok
    exact ⟨subnet, hs, first, hfirst, haddress⟩
  · rintro ⟨subnet, hs, first, hfirst, rfl⟩
    obtain ⟨ip, hip⟩ := hall subnet hs
    obtain ⟨first', hfirst', haddress⟩ := cniIp_eq_ok hip
    rw [hfirst] at hfirst'
    injection hfirst' with hfirst'
    subst hfirst'
    exact ⟨ip, (hmem ip).mpr ⟨subnet, hs, hip⟩, haddress⟩

theorem exists_vifToCniResult (ifname containerId : String)
    (h : ∀ subnet ∈ vif.network.subnets, subnet.ips ≠ []) :
    ∃ result, vifToCniResult vif ifname containerId = .ok result := by
  obtain ⟨ips, hips⟩ := mapM_of_forall fun subnet hs => exists_cniIp.mpr (h subnet hs)
  exact ⟨_, by rw [vifToCniResult, hips]; rfl⟩

end

/-- The result of ADD has the addresses and the routes that `connect` has put on the interface,
whatever the kernel had to say of the default route. -/
def Reports (conf : Config) (vif : Vif) : Prop :=
  ∀ ifname containerId, ∃ result, vifToCniResult vif ifname containerId = .ok result ∧
    ∀ kernel isDefaultGateway done, connect conf kernel vif isDefaultGateway = .ok done →
      (∀ a, (∃ ip ∈ result.ips, ip.address = a) ↔ .addIp a ∈ done) ∧
      ∀ gateway dst, { dst, gw := gateway } ∈ result.routes ↔ .addRoute gateway dst ∈ done

/-- Every subnet has an address, and each of its addresses is the first one of a subnet. -/
def OneAddressEach (vif : Vif) : Prop :=
  (∀ subnet ∈ vif.network.subnets, subnet.ips ≠ []) ∧
    ∀ subnet ∈ vif.network.subnets, ∀ ip ∈ subnet.ips,
      ∃ subnet' ∈ vif.network.subnets, ∃ first, subnet'.ips.head? = some first ∧
        withPrefix ip.address subnet.cidr.prefixlen = withPrefix first.address subnet'.cidr.prefixlen

theorem OneAddressEach.of_reports {conf : Config} {vif : Vif}
    (h : needConfigureL3 conf vif = .ok true) (hreports : Reports conf vif) : OneAddressEach vif := by
  obtain ⟨result, hresult, hsame⟩ := hreports "" ""
  obtain ⟨hall, hips, -⟩ := vifToCniResult_spec hresult
  obtain ⟨done, hdone⟩ := configureL3_granting (osvifVifToDict vif) true
  rw [← connect_eq h] at hdone
  refine ⟨hall, fun subnet hs ip hip => ?_⟩
  rw [← hips, (hsame granting true done hdone).1, addIp_mem_connect h hdone]
  exact ⟨subnet, hs, ip, hip, rfl⟩

/-- What is reported is what was configured exactly when no subnet has a second address of its
own. -/
theorem reports_iff (conf : Config) (vif : Vif) (h : needConfigureL3 conf vif = .ok true) :
    Reports conf vif ↔ OneAddressEach vif := by
  constructor
  · exact .of_reports h
  · rintro ⟨hall, hfirst⟩ ifname containerId
    obtain ⟨result, hresult⟩ := exists_vifToCniResult ifname containerId hall
    obtain ⟨-, hips, hroutes⟩ := vifToCniResult_spec hresult
    refine ⟨result, hresult, fun kernel isDefaultGateway done hdone => ⟨fun a => ?_, fun gw dst => ?_⟩⟩
    · rw [hips, addIp_mem_connect h hdone]
      constructor
      · rintro ⟨subnet, hs, first, hhead, ha⟩
        exact ⟨subnet, hs, first, List.mem_of_mem_head? hhead, ha⟩
      · rintro ⟨subnet, hs, ip, hip, rfl⟩
        exact hfirst subnet hs ip hip
    · rw [hroutes, addRoute_mem_connect h hdone]
      simp [cniRoutes, eq_comm, and_comm]

/-- A VIF of a single subnet. -/
def onSubnet (ips : List FixedIp) : Vif :=
  { address := "fa:16:3e:00:00:01", vifName := "tap0", bridgeName := "br-int",
    network :=
      { subnets := [{ cidr := { version := 4, prefixlen := 24 }, gateway := some "10.0.0.1", ips }],
        mtu := 1500 } }

theorem reports_first :
    Reports {} (onSubnet [⟨4, "10.0.0.2"⟩]) ↔ OneAddressEach (onSubnet [⟨4, "10.0.0.2"⟩]) :=
  reports_iff {} _ rfl

theorem not_reports : ¬Reports {} (onSubnet [⟨4, "10.0.0.2"⟩, ⟨4, "10.0.0.3"⟩]) := by
  intro h
  obtain ⟨subnet, hs, first, hfirst, haddress⟩ :=
    (OneAddressEach.of_reports rfl h).2 _ (List.mem_singleton.mpr rfl) ⟨4, "10.0.0.3"⟩ (by simp)
  rw [List.mem_singleton.mp hs] at hfirst haddress
  cases hfirst
  exact absurd haddress (by decide +kernel)

end Result

end Cni

end Zun
