import OrderApi.Order.OrderController

/-
  `src/product/product.service.ts` and
  `src/product/product.controller.ts`.

  Key definitions include:
    * `ProductService.create`
    * `ProductService.findAll`
    * `ProductService.findOne`
    * `ProductService.update`
    * `ProductService.remove`
-/

------------------------------------------------------------
-- Product Service
------------------------------------------------------------

namespace OrderApi

namespace ProductService

/-
  `tenantCode` is the tenant context's code, which the path
  of every product route sets.
-/
def create
    (db tenantCode : String)
    (createProductDto : CreateProductDto) :
    Handler Product :=
  if tenantCode = "" then
    raise .forbidden
      "Tenant context is required for ADMIN users"
  else
    prisma db
      (.productCreate createProductDto.name
        createProductDto.description createProductDto.price
        (createProductDto.stock.getD 0))

/- The window is cut at the requested, unclamped page. -/
def findAll
    (db tenantCode : String)
    (page perPage : Nat) : Handler (Page Product) :=
  mapMissingDatabase tenantCode do
    let total : Nat ← prisma db .productCount
    let data : List Product ←
      prisma db
        (.productFindMany ((page - 1) * perPage) perPage)
    let totalPages := totalPages total perPage
    pure
      { page := min page totalPages
        per_page := perPage
        total := total
        total_pages := totalPages
        data := data }

def findOne
    (db id tenantCode : String) : Handler Product :=
  mapMissingDatabase tenantCode do
    let product : Option Product ←
      prisma db (.productFindUnique id)
    match product with
    | none =>
        raise .notFound
          (OrderService.productNotFound id)
    | some product => pure product

def update
    (db id : String)
    (updateProductDto : UpdateProductDto)
    (tenantCode : String) : Handler Product := do
  let _ ← findOne db id tenantCode
  mapMissingDatabase tenantCode
    (prisma db (.productUpdate id updateProductDto))

def remove
    (db id tenantCode : String) : Handler Product := do
  let _ ← findOne db id tenantCode
  mapMissingDatabase tenantCode
    (prisma db (.productDelete id))

end ProductService

end OrderApi

------------------------------------------------------------
-- Product Controller
------------------------------------------------------------

namespace OrderApi

namespace ProductController

def create
    (db tenantCode : String)
    (createProductDto : CreateProductDto) :
    Handler Product :=
  ProductService.create db tenantCode createProductDto

def findAll
    (db tenantCode : String)
    (page perPage : Option String) :
    Handler (Page Product) :=
  ProductService.findAll db tenantCode (pageNum page)
    (perPageNum perPage)

def findOne
    (db id tenantCode : String) : Handler Product :=
  ProductService.findOne db id tenantCode

def update
    (db id : String)
    (updateProductDto : UpdateProductDto)
    (tenantCode : String) : Handler Product :=
  ProductService.update db id updateProductDto tenantCode

def remove
    (db id tenantCode : String) : Handler Product :=
  ProductService.remove db id tenantCode

end ProductController

end OrderApi
