import MuduoPlus.InventoryExec
import MuduoPlus.OrderCache

namespace MuduoPlus

namespace InventoryService

variable {svc : InventoryService}

theorem head?_stockKey (hp : svc.DefaultPrefixes) (productId : Bytes) :
    (svc.stockKey productId).head? = some 105 := by
  rw [stockKey, cString_makeStockKey hp]
  simp [ascii]

theorem head?_reservationKey (hp : svc.DefaultPrefixes) (reservationId : Bytes) :
    (svc.reservationKey reservationId).head? = some 105 := by
  rw [reservationKey, cString_makeReservationKey hp]
  simp [ascii]

end InventoryService

namespace OrderCache

open InventoryService

variable {svc : InventoryService} {cache : OrderCache}

theorem orderKey_eq (hc : cache.options.keyPrefix = ascii "order:") (orderId : Bytes) :
    cache.orderKey orderId = ascii "order:" ++ cString orderId := by
  rw [orderKey, buildOrderKey, hc, cString_append (by decide +kernel)]

theorem userKey_eq (hu : cache.options.userIndexPrefix = ascii "user_orders:") (userId : Bytes) :
    cache.userKey userId = ascii "user_orders:" ++ cString userId := by
  rw [userKey, buildUserKey, hu, cString_append (by decide +kernel)]

theorem head?_orderKey (hc : cache.options.keyPrefix = ascii "order:") (orderId : Bytes) :
    (cache.orderKey orderId).head? = some 111 := by
  rw [orderKey_eq hc]
  simp [ascii]

theorem head?_userKey (hu : cache.options.userIndexPrefix = ascii "user_orders:") (userId : Bytes) :
    (cache.userKey userId).head? = some 117 := by
  rw [userKey_eq hu]
  simp [ascii]

theorem stockKey_ne_orderKey (hp : svc.DefaultPrefixes)
    (hc : cache.options.keyPrefix = ascii "order:") (productId orderId : Bytes) :
    svc.stockKey productId ≠ cache.orderKey orderId := by
  apply ne_of_apply_ne List.head?
  rw [head?_stockKey hp, head?_orderKey hc]
  decide

theorem reservationKey_ne_orderKey (hp : svc.DefaultPrefixes)
    (hc : cache.options.keyPrefix = ascii "order:") (reservationId orderId : Bytes) :
    svc.reservationKey reservationId ≠ cache.orderKey orderId := by
  apply ne_of_apply_ne List.head?
  rw [head?_reservationKey hp, head?_orderKey hc]
  decide

section UserKey

variable (hu : cache.options.userIndexPrefix = ascii "user_orders:")

include hu

theorem userKey_ne_orderKey (hc : cache.options.keyPrefix = ascii "order:") (userId orderId : Bytes) :
    cache.userKey userId ≠ cache.orderKey orderId := by
  apply ne_of_apply_ne List.head?
  rw [head?_userKey hu, head?_orderKey hc]
  decide

theorem userKey_ne_stockKey (hp : svc.DefaultPrefixes) (userId productId : Bytes) :
    cache.userKey userId ≠ svc.stockKey productId := by
  apply ne_of_apply_ne List.head?
  rw [head?_userKey hu, head?_stockKey hp]
  decide

theorem userKey_ne_reservationKey (hp : svc.DefaultPrefixes) (userId reservationId : Bytes) :
    cache.userKey userId ≠ svc.reservationKey reservationId := by
  apply ne_of_apply_ne List.head?
  rw [head?_userKey hu, head?_reservationKey hp]
  decide

theorem userKey_injective {u u' : Bytes} (hn : 0 ∉ u) (hn' : 0 ∉ u')
    (he : cache.userKey u = cache.userKey u') : u = u' := by
  rw [userKey_eq hu, userKey_eq hu, cString_of_nulFree hn, cString_of_nulFree hn'] at he
  exact List.append_cancel_left he

end UserKey

end OrderCache

end MuduoPlus
